import Mathlib
import TruenasCE.Actions.Entities

/-! # No action fails silently

A mutating call that fails ends the action that made it, unless the action is that of a switch that enables a task.
-/
namespace TruenasCE.Actions
open ApiParser Std.Do

set_option mvcgen.warning false

/-- If the mutating call of the action, which is the latest one it made, recorded an error, then the action raised
and told of no success since. -/
def FailsAloud (ran : Ran) : Prop :=
  ∀ call, ran.events.find? Event.mutates = some call → call.failed = true →
    (∃ raised, ran.result = .error raised) ∧
      ∀ event ∈ ran.events.takeWhile (fun event => !event.mutates), event.reports = false

def Clean (events : Events) : Prop := ∀ event ∈ events, event.mutates = true → event.failed = false

/-- If a mutating call has failed, it was the latest of all events. -/
def Loud (events : Events) : Prop := Clean events.tail

theorem Clean.loud {events : Events} (h : Clean events) : Loud events :=
  fun event hmem => h event (List.mem_of_mem_tail hmem)

theorem Clean.cons {events : Events} {event : Event} (h : Clean events)
    (hevent : event.mutates = true → event.failed = false) : Clean (event :: events) := by
  intro e hmem
  rcases List.mem_cons.mp hmem with rfl | hmem
  · exact hevent
  · exact h e hmem

section Steps
variable (host : Host)

/-- Behind a call, before its error is looked at. -/
structure Told (s : Session) : Prop where
  loud : Loud s.events
  clean : s.error = "" → Clean s.events

structure Answered (q : Query) (v : Value) (s : Session) : Prop extends Told s where
  none : s.error ≠ "" → v = .none
  read : q.mutating = false → Clean s.events

theorem Answered.of_isNone {q : Query} {v : Value} {s : Session} (h : Answered q v s) (hsome : v.isNone = false) :
    Clean s.events := by
  refine h.clean (by_contra (fun herror => ?_))
  rw [h.none herror] at hsome
  cases hsome

/-- Begun before any failure, the computation returns only without one, and raises with at most that of the latest
call. -/
abbrev Sound {α : Type} (act : Act α) : Prop :=
  ⦃fun s => ⌜Clean s.events⌝⦄ act ⦃post⟨fun _ s => ⌜Clean s.events⌝,fun _ s => ⌜Loud s.events⌝⟩⦄

/-- The same of a computation that raises nothing on account of a call. -/
abbrev Plain {α : Type} (act : Act α) : Prop :=
  ⦃fun s => ⌜Clean s.events⌝⦄ act ⦃post⟨fun _ s => ⌜Clean s.events⌝,fun _ s => ⌜Clean s.events⌝⟩⦄

attribute [grind →] Clean.loud Answered.toTold Told.loud Told.clean Answered.of_isNone
attribute [grind =] Event.mutates

@[spec] theorem query_spec (q : Query) : ⦃fun s => ⌜Clean s.events⌝⦄ query host q
    ⦃post⟨fun v s => ⌜Answered q v s⌝,fun _ s => ⌜Clean s.events⌝⟩⦄ := by
  mvcgen [query]
  · exact Clean.cons ‹_› (fun _ => rfl)
  rename_i s hclean _ outcome hraised houtcome
  have htold : outcome.error = "" → Clean (.asked q outcome :: s.events) :=
    fun herror => hclean.cons (fun _ => by simpa [Event.failed] using herror)
  refine ⟨⟨hclean,htold⟩,fun herror => ?_,fun hread => hclean.cons (fun hmutates => ?_)⟩
  · cases outcome with
    | result v => exact absurd rfl herror
    | _ => rfl
  · rw [Event.mutates,hread] at hmutates
    cases hmutates

@[spec] theorem item_plain (name : String) : Plain (item host name) := by
  mvcgen [item,data]

@[spec] theorem field_plain (name : String) : Plain (field host name) := by
  mvcgen [field,data]

@[spec] theorem logItems_plain (first second : String) : Plain (logItems host first second) := by
  mvcgen [logItems]

@[spec] theorem orRaise_sound {α : Type} (x : Except Raised α) : Sound (orRaise x) := by
  mvcgen [orRaise]
  exact Clean.loud ‹_›

@[spec] theorem refresh_plain : Plain (refresh host) := by
  mvcgen [refresh]
  exact Clean.cons ‹_› (nomatch ·)

@[spec] theorem record_plain {event : Event} (hevent : event.mutates = false) : Plain (record event) := by
  mvcgen [record]
  refine Clean.cons ‹_› (fun h => ?_)
  rw [hevent] at h
  cases h

@[spec] theorem raiseIfApiError_spec (action : String) :
    ⦃fun s => ⌜Told s⌝⦄ raiseIfApiError host action
    ⦃post⟨fun _ s => ⌜Clean s.events⌝,fun _ s => ⌜Loud s.events⌝⟩⦄ := by
  mvcgen [raiseIfApiError]
  · exact Told.loud ‹_›
  · exact Told.clean ‹_› (not_not.mp ‹_›)

@[spec] theorem controlService_told (verb : Verb) : ⦃fun s => ⌜Clean s.events⌝⦄ controlService host verb
    ⦃post⟨fun _ s => ⌜Told s⌝,fun _ s => ⌜Loud s.events⌝⟩⦄ := by
  mvcgen [controlService] with grind -linarith

@[spec] theorem runTask_sound (method : String) (objectId : Value) (dataPath : String) :
    Sound (runTask host method objectId dataPath) := by
  mvcgen [runTask] with grind -linarith

theorem serviceSwitchTurn_sound (on : Bool) : Sound (serviceSwitchTurn host on) := by
  mvcgen [serviceSwitchTurn] with grind -linarith

theorem runButtonPress_sound (description : ButtonDescription) : Sound (runButtonPress host description) := by
  mvcgen [runButtonPress] with grind -linarith

@[spec] theorem refreshPools_plain : Plain (refreshPools host) := by
  mvcgen [refreshPools]

@[spec] theorem checkScrubState_sound (button : Scrub.Button) (poolName : Value) :
    Sound (checkScrubState host button poolName) := by
  mvcgen [checkScrubState] with grind -linarith

@[spec] theorem sendScrubAction_sound (button : Scrub.Button) (poolName taskId : Value) :
    Sound (sendScrubAction host button poolName taskId) := by
  mvcgen [sendScrubAction] with grind -linarith

theorem scrubButtonPress_sound (button : Scrub.Button) : Sound (scrubButtonPress host button) := by
  mvcgen [scrubButtonPress] with grind -linarith

theorem statisticsCleanupPress_sound : Sound (statisticsCleanupPress host) := by
  mvcgen [statisticsCleanupPress] with grind -linarith

theorem migrationRollbackPress_sound : Sound (migrationRollbackPress host) := by
  mvcgen [migrationRollbackPress] with grind -linarith

theorem vmStart_sound (overcommit : Bool) : Sound (vmStart host overcommit) := by
  mvcgen [vmStart] with grind -linarith

theorem vmStop_sound (overcommit : Bool) : Sound (vmStop host overcommit) := by
  mvcgen [vmStop] with grind -linarith

theorem vmRestart_sound : Sound (vmRestart host) := by
  mvcgen [vmRestart] with grind -linarith

@[spec] theorem currentStatus_plain : Plain (currentStatus host) := by
  mvcgen [currentStatus,exceptException]
  rename_i containerApi method _ _ _ _ _ hanswered
  have hread : method ∈ readMethods := by
    cases h : containerApi
    all_goals simp [method,h,readMethods]
  exact hanswered.read (by simpa [Query.mutating] using hread)

theorem containerStart_sound : Sound (containerStart host) := by
  mvcgen [containerStart] with grind -linarith

theorem containerStop_sound : Sound (containerStop host) := by
  mvcgen [containerStop] with grind -linarith

theorem containerRestart_sound : Sound (containerRestart host) := by
  mvcgen [containerRestart] with grind -linarith

@[spec] theorem getService_sound (action : String) : Sound (getService host action) := by
  mvcgen [getService] with grind -linarith

@[spec] theorem serviceRun_sound (verb : Verb) (applies : Value → Bool) : Sound (serviceRun host verb applies) := by
  mvcgen [serviceRun] with grind -linarith

theorem appStart_sound : Sound (appStart host) := by
  mvcgen [appStart] with grind -linarith

theorem appStop_sound : Sound (appStop host) := by
  mvcgen [appStop] with grind -linarith

theorem systemCall_sound (method action reason : String) : Sound (systemCall host method action reason) := by
  mvcgen [systemCall] with grind -linarith

@[spec] theorem alertAction_sound (uuid : Value) (action : AlertAction) : Sound (alertAction host uuid action) := by
  mvcgen [alertAction] with grind -linarith

theorem alertRun_sound (uuid : Value) (action : AlertAction) : Sound (alertRun host uuid action) := by
  mvcgen [alertRun] with grind -linarith

@[spec] theorem datasetName_plain : Plain (datasetName host) := by
  mvcgen [datasetName,data]

@[spec] theorem locked_plain : Plain (locked host) := by
  mvcgen [locked,data]

@[spec] theorem poll_plain (jobId : Value) : Plain (poll host jobId) := by
  mvcgen [poll]
  exact Clean.cons ‹_› (nomatch ·)

@[spec] theorem raiseDatasetActionFailed_spec (action : String) {α : Type} (x : Except Datasets.Reason α) :
    ⦃fun s => ⌜Loud s.events ∧ ∀ a, x = .ok a → Clean s.events⌝⦄ raiseDatasetActionFailed host action x
    ⦃post⟨fun _ s => ⌜Clean s.events⌝,fun _ s => ⌜Loud s.events⌝⟩⦄ := by
  mvcgen [raiseDatasetActionFailed,datasetName,data] with grind -linarith

theorem not_ok_of_isInt {jobId : Value} {polls : List Value} {result : Value} (h : ¬ Datasets.isInt jobId = true) :
    Datasets.runDatasetJob ⟨jobId,polls⟩ ≠ .ok result := by
  unfold Datasets.runDatasetJob
  simp [h]

theorem isNone_of_isInt {v : Value} (h : Datasets.isInt v = true) : v.isNone = false := by
  cases v <;> first | rfl | cases h

@[spec] theorem runDatasetJob_sound (method : String) (payload : List Value) (action : String) :
    Sound (runDatasetJob host method payload action) := by
  mvcgen [runDatasetJob] with grind -linarith [not_ok_of_isInt,isNone_of_isInt]

@[spec] theorem raiseIfNotEncrypted_sound (action : String) : Sound (raiseIfNotEncrypted host action) := by
  mvcgen [raiseIfNotEncrypted] with grind -linarith

theorem lock_sound (forceUmount : Bool) : Sound (lock host forceUmount) := by
  mvcgen [lock] with grind -linarith

@[spec] theorem storedPassphrase_plain : Plain (storedPassphrase host) := by
  mvcgen [storedPassphrase]

theorem unlock_sound (passphrase : Option String) (recursive force : Bool) :
    Sound (unlock host passphrase recursive force) := by
  mvcgen [unlock] with grind -linarith

@[spec] theorem taskStart_sound (busy : List String) (method dataPath : String) :
    Sound (taskStart host busy method dataPath) := by
  mvcgen [taskStart] with grind -linarith

@[spec] theorem cloudsyncJob_sound (action : String) : Sound (cloudsyncJob host action) := by
  mvcgen [cloudsyncJob] with grind -linarith

theorem cloudsyncStart_sound : Sound (cloudsyncStart host) := by
  mvcgen [cloudsyncStart] with grind -linarith

theorem cloudsyncStop_sound : Sound (cloudsyncStop host) := by
  mvcgen [cloudsyncStop] with grind -linarith

theorem raiseUnsupported_sound (entityId name : String) : Sound (raiseUnsupported entityId name) := by
  mvcgen [raiseUnsupported] with grind -linarith

theorem Plain.sound {α : Type} {act : Act α} (h : Plain act) : Sound act := by
  mvcgen [h] with grind -linarith

theorem ran_of_triple {act : Act Unit} {P Q E : Events → Prop} (hP : P [])
    (h : ⦃fun s => ⌜P s.events⌝⦄ act ⦃post⟨fun _ s => ⌜Q s.events⌝,fun _ s => ⌜E s.events⌝⟩⦄) (error : String) :
    ((act.ran ⟨error,[]⟩).result = .ok () ∧ Q (act.ran ⟨error,[]⟩).events) ∨
      (∃ raised, (act.ran ⟨error,[]⟩).result = .error raised) ∧ E (act.ran ⟨error,[]⟩).events := by
  have hrun := h ⟨error,[]⟩ hP
  simp only [wp,PredTrans.apply_pushExcept,PredTrans.apply_pushArg] at hrun
  unfold Act.ran
  rcases hends : Act.ends act ⟨error,[]⟩ with ⟨raised | u,s⟩
  · rw [show (act.run.run ⟨error,[]⟩).run = _ from hends] at hrun
    exact Or.inr ⟨⟨raised,rfl⟩,by simpa using hrun⟩
  · rw [show (act.run.run ⟨error,[]⟩).run = _ from hends] at hrun
    exact Or.inl ⟨rfl,by simpa using hrun⟩

theorem find?_mutates {events : Events} {call : Event} (h : events.find? Event.mutates = some call) :
    call ∈ events ∧ call.mutates = true := ⟨List.mem_of_find?_eq_some h,List.find?_some h⟩

theorem failsAloud_of_clean {ran : Ran} (h : Clean ran.events) : FailsAloud ran := by
  intro call hcall hfailed
  obtain ⟨hmem,hmutates⟩ := find?_mutates hcall
  rw [h call hmem hmutates] at hfailed
  cases hfailed

theorem failsAloud_of_loud {ran : Ran} (hraised : ∃ raised, ran.result = .error raised) (h : Loud ran.events) :
    FailsAloud ran := by
  intro call hcall hfailed
  refine ⟨hraised,?_⟩
  cases hevents : ran.events with
  | nil => exact nofun
  | cons latest past =>
    rw [hevents] at hcall
    cases hmutates : latest.mutates with
    | true => simp [hmutates]
    | false =>
      rw [List.find?_cons,hmutates] at hcall
      obtain ⟨hmem,hcallMutates⟩ := find?_mutates hcall
      rw [Loud,hevents] at h
      rw [h call hmem hcallMutates] at hfailed
      cases hfailed

theorem Sound.failsAloud {act : Act Unit} (h : Sound act) (error : String) : FailsAloud (act.ran ⟨error,[]⟩) := by
  rcases ran_of_triple (P := Clean) nofun h error with ⟨_,hclean⟩ | ⟨hraised,hloud⟩
  · exact failsAloud_of_clean hclean
  · exact failsAloud_of_loud hraised hloud

def Quiet (events : Events) : Prop := ∀ event ∈ events, event.reports = false

def Settled (events : Events) : Prop := ∀ call, events.find? Event.mutates = some call → call.failed = false

/-- Behind a mutating call that another one may follow. -/
structure Attempted (v : Value) (s : Session) : Prop where
  quiet : Quiet s.events
  settled : v.isNone = false ∨ s.error = "" → Settled s.events

attribute [grind →] Attempted.quiet

theorem Quiet.asked {events : Events} (h : Quiet events) (q : Query) (outcome : Outcome) :
    Quiet (.asked q outcome :: events) := by
  intro event hmem
  rcases List.mem_cons.mp hmem with rfl | hmem
  · rfl
  · exact h event hmem

theorem query_attempted (q : Query) : ⦃fun s => ⌜Quiet s.events ∧ q.mutating = true⌝⦄ query host q
    ⦃post⟨fun v s => ⌜Attempted v s⌝,fun _ s => ⌜Quiet s.events⌝⟩⦄ := by
  mvcgen [query,-query_spec]
  · exact Quiet.asked (And.left ‹_›) q _
  · rename_i s hpre _ outcome hraised houtcome
    refine ⟨hpre.1.asked q outcome,fun hvalue call hcall => ?_⟩
    have hlatest : Event.asked q outcome = call := by simpa [Event.mutates,hpre.2] using hcall
    subst hlatest
    rcases hvalue with hvalue | herror
    · cases outcome with
      | result v => rfl
      | _ => cases hvalue
    · simpa [Event.failed] using herror

theorem mutating_of {q : Query} (h : q.method ∉ readMethods) : q.mutating = true := decide_eq_true h

theorem snapshot_settled (name : String) : ⦃fun s => ⌜s.events = []⌝⦄ snapshot host name
    ⦃post⟨fun _ s => ⌜Settled s.events⌝,fun _ s => ⌜Quiet s.events⌝⟩⦄ := by
  mvcgen [snapshot,item,data,datasetName,query_attempted,-query_spec,-item_plain]
  · rename_i hevents _ _ _
    exact ⟨by rw [hevents]; exact nofun,mutating_of (show "pool.snapshot.create" ∉ readMethods by decide)⟩
  · exact ⟨Attempted.quiet ‹_›,mutating_of (show "zfs.snapshot.create" ∉ readMethods by decide)⟩
  · exact Attempted.quiet ‹_›
  · refine Attempted.settled ‹_› ?_
    grind
  · exact Attempted.quiet ‹_›
  · refine Attempted.settled ‹_› ?_
    grind
  · rename_i hevents _
    rw [hevents]
    exact nofun

theorem ends_bind {α β : Type} (act : Act α) (next : α → Act β) (s : Session) :
    (act >>= next).ends s =
      match act.ends s with
      | (.ok a,t) => (next a).ends t
      | (.error raised,t) => (.error raised,t) := by
  change (match act.ends s with | (a,t) => (ExceptT.bindCont (m := StateM Session) next a).run t) = _
  rcases act.ends s with ⟨_ | _,_⟩
  · rfl
  · rfl

theorem ends_item (name : String) (s : Session) : (item host name).ends s =
    match (host.data s.events).lookup name with
    | some value => (.ok value,s)
    | none => (.error (.keyError name),s) := by
  change Act.ends (match (host.data s.events).lookup name with
    | some value => pure value
    | none => throw (.keyError name)) s = _
  cases (host.data s.events).lookup name with
  | some value => rfl
  | none => rfl

theorem ends_query (q : Query) (s : Session) : (query host q).ends s =
    match host.answer s.events q with
    | .raised isException => (.error (.passed isException),⟨"",.asked q (.raised isException) :: s.events⟩)
    | outcome => (.ok outcome.data,⟨outcome.error,.asked q outcome :: s.events⟩) := by
  change Act.ends (α := Value) (do
    set (⟨(host.answer s.events q).error,.asked q (host.answer s.events q) :: s.events⟩ : Session)
    match host.answer s.events q with
    | .raised isException => throw (.passed isException)
    | _ => return (host.answer s.events q).data) s = _
  cases host.answer s.events q <;> rfl

theorem ran_turn (switch : EnableSwitch) (on : Bool) (error : String) :
    (switch.turn host on).ran ⟨error,[]⟩ =
      match (host.data []).lookup "id" with
      | none => ⟨.error (.keyError "id"),[]⟩
      | some id =>
        match host.answer [] (switch.update id on) with
        | .raised isException => ⟨.error (.passed isException),[.asked (switch.update id on) (.raised isException)]⟩
        | outcome => ⟨.ok (),[.refreshed,.asked (switch.update id on) outcome]⟩ := by
  unfold Act.ran EnableSwitch.turn
  rw [ends_bind,ends_item]
  cases (host.data []).lookup "id" with
  | none => rfl
  | some id =>
    simp only [ends_bind,ends_query]
    cases host.answer [] (switch.update id on) <;> rfl

theorem mutating_update (switch : EnableSwitch) (id : Value) (on : Bool) : (switch.update id on).mutating = true := by
  cases switch with
  | cloudsync => exact mutating_of (show "cloudsync.update" ∉ readMethods by decide)
  | cronjob => exact mutating_of (show "cronjob.update" ∉ readMethods by decide)

def Overlooked : Action → Prop
  | .turnEnableSwitch switch on =>
    ∃ id, (host.data []).lookup "id" = some id ∧ (host.answer [] (switch.update id on)).error ≠ ""
  | _ => False

theorem failsAloud_unchecked_iff {q : Query} (hmutates : q.mutating = true) (outcome : Outcome) :
    FailsAloud ⟨.ok (),[.refreshed,.asked q outcome]⟩ ↔ outcome.error = "" := by
  constructor
  · intro h
    by_contra herror
    have hcall : [Event.refreshed,.asked q outcome].find? Event.mutates = some (.asked q outcome) := by
      simp [Event.mutates,hmutates]
    obtain ⟨⟨raised,hresult⟩,_⟩ := h _ hcall (by simpa [Event.failed] using herror)
    cases hresult
  · intro herror
    have hasked : Clean [.asked q outcome] := Clean.cons nofun (fun _ => by simp [Event.failed,herror])
    exact failsAloud_of_clean (hasked.cons nofun)

theorem failsAloud_turn_iff (switch : EnableSwitch) (on : Bool) (error : String) :
    FailsAloud ((switch.turn host on).ran ⟨error,[]⟩) ↔ ¬ Overlooked host (.turnEnableSwitch switch on) := by
  rw [ran_turn]
  unfold Overlooked
  cases hid : (host.data []).lookup "id" with
  | none => exact ⟨fun _ => nofun,fun _ => failsAloud_of_clean nofun⟩
  | some id =>
    have hoverlooked : ¬ (∃ id', some id = some id' ∧ (host.answer [] (switch.update id' on)).error ≠ "") ↔
        (host.answer [] (switch.update id on)).error = "" := by
      simp
    rw [hoverlooked]
    cases houtcome : host.answer [] (switch.update id on) with
    | raised isException =>
      have hclean : Clean [.asked (switch.update id on) (.raised isException)] := Clean.cons nofun (fun _ => rfl)
      simp only [houtcome]
      exact ⟨fun _ => rfl,fun _ => failsAloud_of_clean hclean⟩
    | _ =>
      simp only [houtcome]
      exact failsAloud_unchecked_iff (mutating_update switch id on) _

theorem snapshot_failsAloud (name error : String) : FailsAloud ((snapshot host name).ran ⟨error,[]⟩) := by
  rcases ran_of_triple (P := (· = [])) rfl (snapshot_settled host name) error with ⟨_,hsettled⟩ | ⟨hraised,hquiet⟩
  · intro call hcall hfailed
    rw [hsettled call hcall] at hfailed
    cases hfailed
  · exact fun call _ _ => ⟨hraised,fun event hmem => hquiet event ((List.takeWhile_sublist _).subset hmem)⟩

theorem act_sound (action : Action) (hturn : ∀ switch on, action ≠ .turnEnableSwitch switch on)
    (hsnapshot : ∀ name, action ≠ .snapshot name) : Sound (action.act host) := by
  cases action with
  | turnEnableSwitch switch on => exact absurd rfl (hturn switch on)
  | snapshot name => exact absurd rfl (hsnapshot name)
  | turnServiceSwitch on => exact serviceSwitchTurn_sound host on
  | pressRun description => exact runButtonPress_sound host description
  | pressScrub button => exact scrubButtonPress_sound host button
  | pressStatisticsCleanup => exact statisticsCleanupPress_sound host
  | pressMigrationRollback => exact migrationRollbackPress_sound host
  | refresh => exact (refresh_plain host).sound
  | vmStart overcommit => exact vmStart_sound host overcommit
  | vmStop force => exact vmStop_sound host force
  | vmRestart => exact vmRestart_sound host
  | containerStart => exact containerStart_sound host
  | containerStop => exact containerStop_sound host
  | containerRestart => exact containerRestart_sound host
  | serviceStart => exact serviceRun_sound host .start isStopped
  | serviceStop => exact serviceRun_sound host .stop (fun state => !isStopped state)
  | serviceRestart => exact serviceRun_sound host .restart (fun state => !isStopped state)
  | serviceReload => exact serviceRun_sound host .reload (fun state => !isStopped state)
  | appStart => exact appStart_sound host
  | appStop => exact appStop_sound host
  | systemRestart => exact systemCall_sound host "system.reboot" "restart" "reboot"
  | systemStop => exact systemCall_sound host "system.shutdown" "stop" "shutdown"
  | alert uuid action => exact alertRun_sound host uuid action
  | lock forceUmount => exact lock_sound host forceUmount
  | unlock passphrase recursive force => exact unlock_sound host passphrase recursive force
  | rsyncStart => exact taskStart_sound host ["RUNNING","WAITING"] "rsynctask.run" "rsynctask"
  | replicationStart => exact taskStart_sound host ["RUNNING","WAITING"] "replication.run" "replication"
  | snapshotTaskStart => exact taskStart_sound host ["RUNNING"] "pool.snapshottask.run" "snapshottask"
  | cloudsyncStart => exact cloudsyncStart_sound host
  | cloudsyncStop => exact cloudsyncStop_sound host
  | unsupported entityId name => exact raiseUnsupported_sound entityId name

end Steps

/-- A TrueNAS that may not be written to, with a task of the cloud sync in the data. -/
def readOnly : Host where
  name := "nas"
  supportsServiceControl _ := true
  supportsContainerApi _ := true
  format
    | .str text => text
    | _ => ""
  data _ := [("id",.int 1)]
  answer _ _ := .callError "[EACCES] Not authorized" ""
  refreshError _ := ""
  pools _ := ⟨some [],false⟩
  poolsError _ := ""
  polls _ := ([],"")
  passphrases := .dict []
  orphanedStatistics := []
  rollbackPossible := false

end TruenasCE.Actions
