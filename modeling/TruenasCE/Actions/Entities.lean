import TruenasCE.Actions.Session

/-! # The actions of the entities

Switches, buttons, and the services that start, stop and restart what a sensor stands for.
-/
namespace TruenasCE.Actions
open ApiParser

variable (host : Host)

inductive Verb
  | start
  | stop
  | restart
  | reload
  deriving DecidableEq, Repr

def Verb.upper : Verb → String
  | .start => "START"
  | .stop => "STOP"
  | .restart => "RESTART"
  | .reload => "RELOAD"

def Verb.lower : Verb → String
  | .start => "start"
  | .stop => "stop"
  | .restart => "restart"
  | .reload => "reload"

def controlService (verb : Verb) : Act Unit := do
  if host.supportsServiceControl (← get).events then
    let service ← item host "service"
    let _ ← query host { method := "service.control", params := .list [.str verb.upper,service] }
  else
    let service ← item host "service"
    let _ ← query host { method := "service." ++ verb.lower, params := .list [service] }

def runTask (method : String) (objectId : Value) (dataPath : String) : Act Unit := do
  let _ ← query host { method := method, params := .list [objectId] }
  let error := (← get).error
  if error ≠ "" then
    throw (.homeAssistantError "run_task_failed" [("host",.str host.name),("error",.str error)])
  record (.markedRunning dataPath objectId)

def logItems (first second : String) : Act Unit := do
  let _ ← item host first
  let _ ← item host second

def isOneOf (value : Value) (names : List String) : Bool := names.any (fun name => value.eq (.str name))

/-- `rows[0] if isinstance(rows, list) and rows else None` -/
def firstRow : Value → Value
  | .list (row :: _) => row
  | _ => .none

/-- `isinstance(row, dict) and name in row` -/
def hasField (name : String) : Value → Bool
  | .dict fields => (fields.lookup name).isSome
  | _ => false

def fieldOf (name : String) : Value → Value
  | .dict fields => dictGet fields name
  | _ => .none

inductive EnableSwitch
  | cloudsync
  | cronjob
  deriving DecidableEq, Repr

def EnableSwitch.updateMethod : EnableSwitch → String
  | .cloudsync => "cloudsync.update"
  | .cronjob => "cronjob.update"

def EnableSwitch.update (switch : EnableSwitch) (id : Value) (on : Bool) : Query :=
  { method := switch.updateMethod, params := .list [id,.dict [("enabled",.bool on)]] }

/-- `async_turn_on` and `async_turn_off` -/
def EnableSwitch.turn (switch : EnableSwitch) (on : Bool) : Act Unit := do
  let id ← item host "id"
  let _ ← query host (switch.update id on)
  refresh host

def serviceSwitchTurn (on : Bool) : Act Unit := do
  let verb := if on then Verb.start else Verb.stop
  controlService host verb
  raiseIfApiError host verb.lower
  refresh host

structure ButtonDescription where
  apiMethod : Option String
  dataPath : Option String
  deriving DecidableEq, Repr

def runButtonPress (description : ButtonDescription) : Act Unit := do
  let objectId ← field host "id"
  match description.apiMethod,description.dataPath with
  | some method,some dataPath =>
    if method = "" ∨ dataPath = "" ∨ objectId.isNone then return
    runTask host method objectId dataPath
  | _,_ => return

/-- `_refresh_pools` of a scrub button: why the re-read failed, or the pools that it leaves -/
def refreshPools : Act (Except String (List Scrub.Pool)) := do
  let events := (← get).events
  record .poolsRead
  match host.pools events with
  | ⟨none,_⟩ => return .error (host.poolsError events)
  | ⟨some _,true⟩ => return .error "TrueNAS returned no usable pool data"
  | ⟨some pools,false⟩ => return .ok pools

def scrubFailed (poolName : Value) (error : String) : Raised :=
  .homeAssistantError "scrub_failed" [("pool",poolName),("host",.str host.name),("error",.str error)]

/-- `_scrub_state` by the name that the data of the task hold -/
def scrubState (pools : List Scrub.Pool) : Value → Option String
  | .str poolName => Scrub.scrubState pools poolName
  | _ => none

/-- The check of `_send_scrub_action`, for the buttons that have one -/
def checkScrubState (button : Scrub.Button) (poolName : Value) : Act Unit := do
  if !button.scrubStates.isEmpty then
    match ← refreshPools host with
    | .error error => throw (scrubFailed host poolName error)
    | .ok pools =>
      if (scrubState pools poolName).all (fun state => state ∉ button.scrubStates) then
        throw (.serviceValidationError (button.key ++ "_not_possible") [("pool",poolName)])

/-- `_send_scrub_action`, under `scrub_lock` -/
def sendScrubAction (button : Scrub.Button) (poolName taskId : Value) : Act Unit := do
  checkScrubState host button poolName
  let result ← query host { method := "pool.scrub.scrub", params := .list [poolName,.str button.scrubAction] }
  if result.isNone then
    let error := (← get).error
    throw (scrubFailed host poolName (if error ≠ "" then error else "unknown error"))
  if button.scrubAction = "START" ∧ button.scrubStates.isEmpty then
    record (.markedRunning "scrub" taskId)
  let _ ← refreshPools host

def scrubButtonPress (button : Scrub.Button) : Act Unit := do
  let poolName ← field host "pool_name"
  let taskId ← field host "id"
  if !poolName.truthy || taskId.isNone then return
  sendScrubAction host button poolName taskId

def statisticsCleanupPress : Act Unit := do
  if !host.orphanedStatistics.isEmpty then record (.clearedStatistics host.orphanedStatistics)

def migrationRollbackPress : Act Unit := do
  if host.rollbackPossible then record .raisedRollbackIssue

/-- `tmp_vm.get("status", {}).get("state")` of a dict -/
def vmState : Value → Except Raised Value
  | .dict vm =>
    match vm.lookup "status" with
    | none => .ok .none
    | some (.dict status) => .ok (dictGet status "state")
    | some _ => .error .attributeError
  | _ => .ok .none

def vmStart (overcommit : Bool) : Act Unit := do
  let id ← item host "id"
  let vm ← query host { method := "vm.get_instance", params := .list [id] }
  raiseIfApiError host "start"
  let state ← orRaise (vmState vm)
  if !state.truthy then
    logItems host "name" "id"
  else if !state.eq (.str "STOPPED") then
    logItems host "name" "id"
  else
    let id ← item host "id"
    let _ ← query host { method := "vm.start", params := .list [id,.dict [("overcommit",.bool overcommit)]] }
    raiseIfApiError host "start"

def vmStop (force : Bool) : Act Unit := do
  let id ← item host "id"
  let vm ← query host { method := "vm.get_instance", params := .list [id] }
  raiseIfApiError host "stop"
  let state ← orRaise (vmState vm)
  if !state.truthy then
    logItems host "name" "id"
  else if !state.eq (.str "RUNNING") then
    logItems host "name" "id"
  else
    let id ← item host "id"
    let _ ← query host
      { method := "vm.stop", params := .list [id,.dict [("force",.bool force),("force_after_timeout",.bool true)]] }
    raiseIfApiError host "stop"

def vmRestart : Act Unit := do
  let id ← item host "id"
  let _ ← query host { method := "vm.restart", params := .list [id] }
  raiseIfApiError host "restart"
  refresh host

def exceptException (act : Act Value) : Act Value :=
  tryCatch act (fun raised =>
    match raised with
    | .passed false => throw raised
    | _ => return .none)

def statusOf (containerApi : Bool) (instances : Value) : Value :=
  let status := fieldOf "status" (firstRow instances)
  if containerApi then fieldOf "state" status
  else
    match status with
    | .str s => .str s
    | _ => .none

/-- `_current_status`; the query reads `_data["id"]`. -/
def currentStatus : Act Value := do
  let containerApi := host.supportsContainerApi (← get).events
  let method := if containerApi then "container.query" else "virt.instance.query"
  exceptException do
    let id ← item host "id"
    let instances ← query host { method := method, params := .list [.list [.list [.str "id",.str "=",id]]] }
    return statusOf containerApi instances

def virtInstanceStopOptions : Value := .dict [("force",.bool true),("timeout",.int (-1))]
def containerStopOptions : Value := .dict [("force",.bool false),("force_after_timeout",.bool true)]

def containerStart : Act Unit := do
  let status ← currentStatus host
  if status.eq (.str "RUNNING") then return
  let method := if host.supportsContainerApi (← get).events then "container.start" else "virt.instance.start"
  let id ← item host "id"
  let _ ← query host { method := method, params := .list [id] }
  raiseIfApiError host "start"
  refresh host

def containerStop : Act Unit := do
  let status ← currentStatus host
  if !status.isNone && !status.eq (.str "RUNNING") then return
  if host.supportsContainerApi (← get).events then
    let id ← item host "id"
    let _ ← query host { method := "container.stop", params := .list [id,containerStopOptions] }
  else
    let id ← item host "id"
    let _ ← query host { method := "virt.instance.stop", params := .list [id,virtInstanceStopOptions] }
  raiseIfApiError host "stop"
  refresh host

def containerRestart : Act Unit := do
  if host.supportsContainerApi (← get).events then
    let id ← item host "id"
    let _ ← query host { method := "container.stop", params := .list [id,containerStopOptions], job := true }
    raiseIfApiError host "restart"
    let id ← item host "id"
    let _ ← query host { method := "container.start", params := .list [id] }
  else
    let id ← item host "id"
    let _ ← query host { method := "virt.instance.restart", params := .list [id,virtInstanceStopOptions] }
  raiseIfApiError host "restart"
  refresh host

def getService (action : String) : Act Value := do
  let id ← item host "id"
  let services ← query host { method := "service.query", params := .list [.list [.list [.str "id",.str "=",id]]] }
  raiseIfApiError host action
  return firstRow services

/-- `start`, `stop`, `restart` and `reload`, which apply to a service in a state or in any but that one -/
def serviceRun (verb : Verb) (applies : Value → Bool) : Act Unit := do
  let service ← getService host verb.lower
  if !hasField "state" service then
    logItems host "service" "id"
  else if !applies (fieldOf "state" service) then
    logItems host "service" "id"
  else
    controlService host verb
    raiseIfApiError host verb.lower
    refresh host

def isStopped (state : Value) : Bool := state.eq (.str "STOPPED")

def serviceStart : Act Unit := serviceRun host .start isStopped
def serviceStop : Act Unit := serviceRun host .stop (fun state => !isStopped state)
def serviceRestart : Act Unit := serviceRun host .restart (fun state => !isStopped state)
def serviceReload : Act Unit := serviceRun host .reload (fun state => !isStopped state)

/-- `tmp_app["state"]` for an app with `"state" in tmp_app`, and none for one without or for None -/
def appState : Value → Except Raised (Option Value)
  | .none => .ok none
  | .dict app => .ok (app.lookup "state")
  | .list items => if items.any (fun x => x.eq (.str "state")) then .error .typeError else .ok none
  | .str s => if "state".toList <:+: s.toList then .error .typeError else .ok none
  | _ => .error .typeError

def appStart : Act Unit := do
  let id ← item host "id"
  let app ← query host { method := "app.get_instance", params := .list [id] }
  raiseIfApiError host "start"
  match ← orRaise (appState app) with
  | none => logItems host "name" "id"
  | some state =>
    if state.eq (.str "RUNNING") then
      logItems host "name" "id"
    else
      let id ← item host "id"
      let _ ← query host { method := "app.start", params := .list [id] }
      raiseIfApiError host "start"

def appStop : Act Unit := do
  let id ← item host "id"
  let app ← query host { method := "app.get_instance", params := .list [id] }
  raiseIfApiError host "stop"
  match ← orRaise (appState app) with
  | none => logItems host "name" "id"
  | some state =>
    if !state.eq (.str "RUNNING") then
      logItems host "name" "id"
    else
      let id ← item host "id"
      let _ ← query host { method := "app.stop", params := .list [id] }
      raiseIfApiError host "stop"

/-- `restart` and `stop` of the uptime sensor -/
def systemCall (method action reason : String) : Act Unit := do
  let _ ← query host { method := method, params := .list [.str "Home Assistant Integration"] }
  raiseIfApiError host action
  record (.notedExpectedDisconnect reason)

def systemRestart : Act Unit := systemCall host "system.reboot" "restart" "reboot"
def systemStop : Act Unit := systemCall host "system.shutdown" "stop" "shutdown"

inductive AlertAction
  | dismiss
  | restore
  deriving DecidableEq, Repr

def AlertAction.name : AlertAction → String
  | .dismiss => "dismiss"
  | .restore => "restore"

def alertAction (uuid : Value) (action : AlertAction) : Act Unit := do
  let _ ← query host { method := "alert." ++ action.name, params := .list [uuid] }
  let error := (← get).error
  if error ≠ "" then
    throw (.homeAssistantError "alert_action_failed"
      [("action",.str action.name),("uuid",uuid),("host",.str host.name),("error",.str error)])
  refresh host

/-- `dismiss` and `restore` of the alert sensor -/
def alertRun (uuid : Value) (action : AlertAction) : Act Unit := do
  if uuid.truthy then alertAction host uuid action
  else throw (.serviceValidationError "missing_uuid" [])

/-- `self._data.get("name", _UNKNOWN_DATASET)` -/
def datasetName : Act Value := do
  return ((← data host).lookup "name").getD Datasets.unknownDataset

def locked : Act Bool := do
  return (((← data host).lookup "locked").getD (.bool true)).truthy

/-- `name` holds the time of the call. -/
def snapshot (name : String) : Act Unit := do
  let dataset ← item host "name"
  let payload := .dict [("dataset",.str (host.format dataset)),("name",.str name)]
  let first ← query host { method := "pool.snapshot.create", params := payload }
  let result ← if first.isNone then query host { method := "zfs.snapshot.create", params := payload } else pure first
  let error := (← get).error
  if result.isNone ∧ error ≠ "" then
    let dataset ← datasetName host
    throw (.homeAssistantError "dataset_action_failed"
      [("action",.str "snapshot"),("dataset",dataset),("host",.str host.name),("reason",.str error)])

def poll (jobId : Value) : Act (List Value) := do
  let polls := host.polls (← get).events
  modify (fun s => { s with error := polls.2, events := .polled jobId :: s.events })
  return polls.1

def raiseDatasetActionFailed (action : String) {α : Type} : Except Datasets.Reason α → Act α
  | .ok a => return a
  | .error reason => do
    let dataset ← datasetName host
    throw (.datasetActionFailed action dataset host.name reason)

def runDatasetJob (method : String) (payload : List Value) (action : String) : Act Value := do
  let jobId ← query host { method := method, params := .list payload }
  let polls ← if Datasets.isInt jobId then poll host jobId else pure []
  raiseDatasetActionFailed host action (Datasets.runDatasetJob ⟨jobId,polls⟩)

def raiseIfNotEncrypted (action : String) : Act Unit := do
  let encrypted ← field host "encrypted"
  if !encrypted.truthy then
    let dataset ← datasetName host
    throw (.serviceValidationError "dataset_not_encrypted" [("dataset",dataset),("action",.str action)])

def lock (forceUmount : Bool) : Act Unit := do
  raiseIfNotEncrypted host "lock"
  refresh host
  if ← locked host then return
  let id ← field host "id"
  let _ ← runDatasetJob host "pool.dataset.lock" [id,.dict [("force_umount",.bool forceUmount)]] "lock"
  refresh host

/-- `stored.get(dataset_name)` of the passphrases in the config entry -/
def storedPassphrase : Act Value := do
  let name ← field host "name"
  if !name.truthy then return .none
  match host.passphrases,name with
  | .dict passphrases,.str name => return dictGet passphrases name
  | .dict _,.list _ => throw .typeError
  | .dict _,.dict _ => throw .typeError
  | _,_ => return .none

def unlock (passphrase : Option String) (recursive force : Bool) : Act Unit := do
  raiseIfNotEncrypted host "unlock"
  let effective ← match passphrase with
    | some passphrase => pure (.str passphrase)
    | none => storedPassphrase host
  if !effective.truthy then
    let dataset ← datasetName host
    throw (.serviceValidationError "missing_passphrase" [("dataset",dataset)])
  refresh host
  if !(← locked host) then return
  let id ← field host "id"
  let name ← field host "name"
  let result ← runDatasetJob host "pool.dataset.unlock"
    [id,.dict [("recursive",.bool recursive),("datasets",.list [.dict [("name",name),("passphrase",effective),
      ("recursive",.bool recursive),("force",.bool force)]])]] "unlock"
  raiseDatasetActionFailed host "unlock" (Datasets.raiseOnUnlockFailure result)
  refresh host

/-- `start` of the sensor of a task, which does nothing in a state of `busy` -/
def taskStart (busy : List String) (method dataPath : String) : Act Unit := do
  let state ← field host "state"
  if !isOneOf state busy then
    let id ← item host "id"
    runTask host method id dataPath

def rsyncStart : Act Unit := taskStart host ["RUNNING","WAITING"] "rsynctask.run" "rsynctask"
def replicationStart : Act Unit := taskStart host ["RUNNING","WAITING"] "replication.run" "replication"
def snapshotTaskStart : Act Unit := taskStart host ["RUNNING"] "pool.snapshottask.run" "snapshottask"

def cloudsyncJob (action : String) : Act Value := do
  let id ← item host "id"
  let jobs ← query host { method := "cloudsync.query", params := .list [.list [.list [.str "id",.str "=",id]]] }
  raiseIfApiError host action
  return firstRow jobs

def isBusy (job : Value) : Bool := isOneOf (fieldOf "state" (fieldOf "job" job)) ["WAITING","RUNNING"]

def cloudsyncStart : Act Unit := do
  let job ← cloudsyncJob host "start"
  if !hasField "job" job then
    logItems host "description" "id"
  else if isBusy job then
    logItems host "description" "id"
  else
    let id ← item host "id"
    runTask host "cloudsync.sync" id "cloudsync"

def cloudsyncStop : Act Unit := do
  let job ← cloudsyncJob host "stop"
  if !hasField "job" job then
    logItems host "description" "id"
  else if !isBusy job then
    logItems host "description" "id"
  else
    let id ← item host "id"
    let _ ← query host { method := "cloudsync.abort", params := .list [id] }
    raiseIfApiError host "stop"

inductive Action
  | turnEnableSwitch (switch : EnableSwitch) (on : Bool)
  | turnServiceSwitch (on : Bool)
  | pressRun (description : ButtonDescription)
  | pressScrub (button : Scrub.Button)
  | pressStatisticsCleanup
  | pressMigrationRollback
  /-- The button, and the service of the uptime sensor -/
  | refresh
  | vmStart (overcommit : Bool)
  | vmStop (force : Bool)
  | vmRestart
  | containerStart
  | containerStop
  | containerRestart
  | serviceStart
  | serviceStop
  | serviceRestart
  | serviceReload
  | appStart
  | appStop
  | systemRestart
  | systemStop
  | alert (uuid : Value) (action : AlertAction)
  | snapshot (name : String)
  | lock (forceUmount : Bool)
  | unlock (passphrase : Option String) (recursive force : Bool)
  | rsyncStart
  | replicationStart
  | snapshotTaskStart
  | cloudsyncStart
  | cloudsyncStop
  /-- A service that the entity does not implement -/
  | unsupported (entityId name : String)

def Action.act : Action → Act Unit
  | .turnEnableSwitch switch on => switch.turn host on
  | .turnServiceSwitch on => serviceSwitchTurn host on
  | .pressRun description => runButtonPress host description
  | .pressScrub button => scrubButtonPress host button
  | .pressStatisticsCleanup => statisticsCleanupPress host
  | .pressMigrationRollback => migrationRollbackPress host
  | .refresh => Actions.refresh host
  | .vmStart overcommit => Actions.vmStart host overcommit
  | .vmStop force => Actions.vmStop host force
  | .vmRestart => Actions.vmRestart host
  | .containerStart => Actions.containerStart host
  | .containerStop => Actions.containerStop host
  | .containerRestart => Actions.containerRestart host
  | .serviceStart => Actions.serviceStart host
  | .serviceStop => Actions.serviceStop host
  | .serviceRestart => Actions.serviceRestart host
  | .serviceReload => Actions.serviceReload host
  | .appStart => Actions.appStart host
  | .appStop => Actions.appStop host
  | .systemRestart => Actions.systemRestart host
  | .systemStop => Actions.systemStop host
  | .alert uuid action => alertRun host uuid action
  | .snapshot name => Actions.snapshot host name
  | .lock forceUmount => Actions.lock host forceUmount
  | .unlock passphrase recursive force => Actions.unlock host passphrase recursive force
  | .rsyncStart => Actions.rsyncStart host
  | .replicationStart => Actions.replicationStart host
  | .snapshotTaskStart => Actions.snapshotTaskStart host
  | .cloudsyncStart => Actions.cloudsyncStart host
  | .cloudsyncStop => Actions.cloudsyncStop host
  | .unsupported entityId name => raiseUnsupported entityId name

/-- A run of the action in a task whose latest call has left `error`. -/
def Action.run (action : Action) (error : String) : Ran := (action.act host).ran ⟨error,[]⟩

end TruenasCE.Actions
