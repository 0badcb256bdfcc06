import Mathlib.Data.Finset.SDiff
import TruenasCE.Jobs.Bookkeeping
import TruenasCE.Library.Latch
import TruenasCE.SystemData.LastKnown
import TruenasCE.SystemData.Version
import TruenasCE.SystemUpdate.Tracking

/-! # The jobs of a poll

A poll reads `system.info` and `interface.query` first and the other endpoints side by side. An answer that cannot be used
keeps what was known and is told once in the log, until the next one that can.
-/
namespace TruenasCE.Polling
open Library SystemData
open ApiParser (Fields Value Interpreter)

structure NetworkInterface where
  id : String
  name : Option String
  description : Option String
  mtu : Option ℤ
  linkState : Option String
  activeMediaType : Option String
  activeMediaSubtype : Option String
  linkAddress : Option String
  linkUp : Option Bool

variable (Flt Time Err : Type)

inductive InfoReply
  | malformed
  | raised (err : Jobs.Raised)
  | answered (info : SystemInfo Flt Time)

/-- What a run of `get_systeminfo` meets, with the answer to the query for the update job and whether the connection was
there behind each of the two. -/
structure InfoRun where
  reply : InfoReply Flt Time
  connected : Bool
  job : Value
  jobConnected : Bool

inductive InterfaceReply
  | malformed
  | raised (err : Jobs.Raised)
  | answered (interfaces : Dict String NetworkInterface)

/-- `failed` is a `TrueNASError` of the whole call. -/
inductive StatsReply
  | failed (err : Err)
  | raised (err : Jobs.Raised)
  | answered (stats : SystemStats Flt Err)

/-- What the coordinator reads of `get_update`. -/
inductive UpdateReply
  | raised (err : Jobs.Raised)
  | answered (available : Bool) (state version : String)

inductive Line
  | infoMalformed
  | infoRecovered
  | interfaceMalformed
  | interfaceNoUsableEntry
  | interfaceRecovered
  | versionUnknown (text : String) (kept : Option (ℕ × ℕ))
  | versionRecovered (version : ℕ × ℕ)
  | graphsFailed (graphs : Finset String) (reasons : Dict String (Option Err))
  | graphsRecovered (graphs : Finset String)

/-- `systemInfo` and `interface` are the two entries of `ds`, `data` is what `system_data` is built from, and
`stateVersion` is what was handed to `TrueNASState`. -/
structure Coordinator where
  jobs : Jobs.State
  data : TrueNASData Flt Time Err
  networkInterfaces : Dict String NetworkInterface
  systemInfo : Fields
  interface : Dict String Fields
  version : Option (ℕ × ℕ)
  versionParseWarned : Bool
  stateVersion : Option (ℕ × ℕ)
  staleGraphsLogged : Finset String
  log : List (Line Err)

def Coordinator.fresh : Coordinator Flt Time Err where
  jobs := Jobs.State.fresh
  data := ⟨none,none⟩
  networkInterfaces := ∅
  systemInfo := []
  interface := ∅
  version := none
  versionParseWarned := false
  stateVersion := none
  staleGraphsLogged := ∅
  log := []

variable {Flt Time Err}

def orUnknown : Option String → Value
  | none => .str "unknown"
  | some text => .str (if text = "" then "unknown" else text)

def applySystemInfo (info : Fields) (systemInfo : SystemInfo Flt Time) : Fields :=
  Mapping.update info [("version",orUnknown (systemInfo .version)),("hostname",orUnknown (systemInfo .hostname)),
    ("system_serial",orUnknown (systemInfo .serial)),("system_product",orUnknown (systemInfo .product)),
    ("system_manufacturer",orUnknown (systemInfo .manufacturer))]

/-- `_SYSTEM_INFO_CARRY_DEFAULTS` -/
def carryDefaults : Fields :=
  [("update_available",.bool false),("update_progress",.int 0),("update_jobid",.int 0),("update_state",.str "unknown"),
    ("update_version",.str "unknown")]

def setDefaults (info : Fields) : Fields := carryDefaults.foldl (fun info e => Mapping.setDefault info e.1 e.2) info

def settleUpdateVersion (info : Fields) : Fields :=
  if SystemUpdate.updateAvailable info then info
  else Mapping.set info "update_version" ((info.lookup "version").getD (.str "unknown"))

/-- `str(info.get("version", "") or "")` -/
def versionText (py : Interpreter) (info : Fields) : String :=
  match SystemUpdate.read info "version" with
  | .str text => text
  | value => if value.truthy then py.str value else ""

namespace Coordinator
variable (u : Decimals) (py : Interpreter) (s : Coordinator Flt Time Err)

/-- A flag of `system.info`, with the line of its change. -/
def noteSystemInfo (malformed : Bool) : Coordinator Flt Time Err :=
  { s with
    jobs := { s.jobs with marks := { s.jobs.marks with systemInfoStale := malformed } }
    log := (if malformed then (if s.jobs.marks.systemInfoStale then [] else [.infoMalformed])
      else if s.jobs.marks.systemInfoStale then [.infoRecovered] else []) ++ s.log }

def noteVersion (text : String) : Coordinator Flt Time Err :=
  match parseVersion u text.toList with
  | some version =>
    { s with
      version := some version
      versionParseWarned := false
      log := (if s.versionParseWarned then [.versionRecovered version] else []) ++ s.log }
  | none =>
    { s with
      versionParseWarned := true
      log := (if s.versionParseWarned then [] else [.versionUnknown text s.version]) ++ s.log }

def syncStateVersion : Coordinator Flt Time Err := { s with stateVersion := s.version.or s.stateVersion }

/-- `get_systeminfo` behind the answer -/
def finishSysteminfo (run : InfoRun Flt Time) : Coordinator Flt Time Err × Jobs.Outcome :=
  let info := setDefaults s.systemInfo
  if run.connected = false then ({ s with systemInfo := info },.returned)
  else
    let info := settleUpdateVersion info
    match SystemUpdate.handleUpdateJob py info run.job run.jobConnected with
    | .error _ => ({ s with systemInfo := info },.raised .other)
    | .ok settled =>
      let s := { s with systemInfo := settled }
      -- the query for the job is the only await on the way
      if SystemUpdate.tracked info = true ∧ run.jobConnected = false then (s,.returned)
      else ((s.noteVersion u (versionText py settled)).syncStateVersion,.returned)

def getSysteminfo (run : InfoRun Flt Time) : Coordinator Flt Time Err × Jobs.Outcome :=
  match run.reply with
  | .raised err => (s,.raised err)
  | .malformed => (s.noteSystemInfo true).finishSysteminfo u py run
  | .answered info =>
    let s := s.noteSystemInfo false
    finishSysteminfo u py { s with
      data := SystemData.getSysteminfo s.data (some info)
      systemInfo := applySystemInfo s.systemInfo info } run

end Coordinator

def orBlank (text : Option String) : Value := .str (text.getD "")

def NetworkInterface.fields (interface : NetworkInterface) : Fields :=
  [("id",.str interface.id),("name",orBlank interface.name),("description",orBlank interface.description),
    ("mtu",(interface.mtu.map Value.int).getD .none),("link_state",orBlank interface.linkState),
    ("active_media_type",orBlank interface.activeMediaType),
    ("active_media_subtype",orBlank interface.activeMediaSubtype),("link_address",orBlank interface.linkAddress),
    ("link_up",.bool (interface.linkUp = some true))]

def applyNetworkInterfaces (current : Dict String Fields) (interfaces : Dict String NetworkInterface) :
    Dict String Fields :=
  Dict.collect (fun x => some x.1)
    (fun x => Mapping.update ((current.lookup x.1).getD []) x.2.fields) ∅ interfaces.entries

namespace Coordinator
variable (s : Coordinator Flt Time Err)

def markInterfaceStale (line : Line Err) : Coordinator Flt Time Err :=
  { s with
    jobs := { s.jobs with marks := { s.jobs.marks with interfaceStale := true } }
    log := (if s.jobs.marks.interfaceStale then [] else [line]) ++ s.log }

def getInterface : InterfaceReply → Coordinator Flt Time Err × Jobs.Outcome
  | .raised err => (s,.raised err)
  | .malformed => (s.markInterfaceStale .interfaceMalformed,.returned)
  | .answered interfaces =>
    if interfaces.keys = [] ∧ s.interface.keys ≠ [] then (s.markInterfaceStale .interfaceNoUsableEntry,.returned)
    else
      ({ s with
        jobs := { s.jobs with marks := { s.jobs.marks with interfaceStale := false } }
        networkInterfaces := interfaces
        interface := applyNetworkInterfaces s.interface interfaces
        log := (if s.jobs.marks.interfaceStale then [.interfaceRecovered] else []) ++ s.log },.returned)

end Coordinator

def systemstatsGraphs (info : Option (SystemInfo Flt Time)) : List String :=
  if info.bind (fun info => info .isVirtual) = some true then ["cpu","memory","arcsize","interface"]
  else ["cpu","memory","arcsize","interface","cputemp"]

def lacksReading (stats : SystemStats Flt Err) (interfaceIds : List String) (graph : String) : Bool :=
  (graph = "cpu" && (stats.readings .cpuUsagePercent).isNone) ||
  (graph = "arcsize" && (stats.readings .arcSize).isNone) ||
  (graph = "memory" && (stats.readings .memoryAvailable).isNone) ||
  (graph = "cputemp" && (stats.readings .cpuTemperature).isNone) ||
  (graph = "interface" && interfaceIds ≠ [] && !stats.interfaces.entries.any (fun x =>
    x.1 ∈ interfaceIds && ((x.2 .rxKbps).isSome || (x.2 .txKbps).isSome)))

def failedGraphs (stats : SystemStats Flt Err) : Dict String Err := (stats.readings .failedGraphs).getD ∅

def graphsWithoutReading (stats : SystemStats Flt Err) (graphs interfaceIds : List String) : List String :=
  graphs.filter (fun graph => lacksReading stats interfaceIds graph && graph ∉ failedGraphs stats)

def staleGraphs (graphs interfaceIds : List String) : StatsReply Flt Err → Dict String (Option Err)
  | .failed err => Dict.collect some (fun _ => some err) ∅ graphs
  | .raised _ => ∅
  | .answered stats =>
    Dict.collect some (fun _ => none)
      (Dict.collect (fun x => some x.1) (fun x => some x.2) ∅ (failedGraphs stats).entries)
      (graphsWithoutReading stats graphs interfaceIds)

namespace Coordinator
variable (s : Coordinator Flt Time Err)

def logSystemstatsStaleness (stale : Dict String (Option Err)) : Coordinator Flt Time Err :=
  let staleGraphs := stale.keys.toFinset
  let newlyStale := staleGraphs \ s.staleGraphsLogged
  let recovered := s.staleGraphsLogged \ staleGraphs
  { s with
    staleGraphsLogged := staleGraphs
    log := (if recovered = ∅ then [] else [.graphsRecovered recovered]) ++
      ((if newlyStale = ∅ then [] else [.graphsFailed newlyStale stale]) ++ s.log) }

def getSystemstats (reply : StatsReply Flt Err) : Coordinator Flt Time Err × Jobs.Outcome :=
  let stale := staleGraphs (systemstatsGraphs s.data.info) s.interface.keys reply
  let s := match reply with
    | .answered stats => { s with data := SystemData.getSystemstats s.data (some stats) s.interface.keys }
    | _ => s
  match reply with
  | .raised err => (s,.raised err)
  | _ =>
    if s.interface.keys = [] then
      (logSystemstatsStaleness { s with staleGraphsLogged := s.staleGraphsLogged.erase "interface" }
        (stale.erase "interface"),.returned)
    else (s.logSystemstatsStaleness stale,.returned)

def getUpdatecheck : UpdateReply → Coordinator Flt Time Err × Jobs.Outcome
  | .raised err => (s,.raised err)
  | .answered available state version =>
    let version : Value :=
      if version = "up-to-date" ∧ (SystemUpdate.read s.systemInfo "version").truthy = true then
        SystemUpdate.read s.systemInfo "version"
      else .str version
    ({ s with
      systemInfo := Mapping.update s.systemInfo
        [("update_available",.bool available),("update_state",.str state),("update_version",version)] },.returned)

/-- `_run_job` behind the job -/
def ended (name : String) (ends : Coordinator Flt Time Err × Jobs.Outcome) : Coordinator Flt Time Err :=
  { ends.1 with jobs := (ends.1.jobs.runJob ⟨some name,""⟩ ends.2).1 }

end Coordinator

/-- A job that ends; `other` is one of the jobs that write elsewhere, and `endpoints` is what `stale_endpoints` says then. -/
inductive Event (Flt Time Err : Type)
  | systeminfo (run : InfoRun Flt Time)
  | interface (reply : InterfaceReply)
  | systemstats (reply : StatsReply Flt Err)
  | updatecheck (reply : UpdateReply)
  | other (name : String) (outcome : Jobs.Outcome) (endpoints : Finset String)

def step (u : Decimals) (py : Interpreter) (s : Coordinator Flt Time Err) : Event Flt Time Err → Coordinator Flt Time Err
  | .systeminfo run => Coordinator.ended "get_systeminfo" (s.getSysteminfo u py run)
  | .interface reply => Coordinator.ended "get_interface" (s.getInterface reply)
  | .systemstats reply => Coordinator.ended "get_systemstats" (s.getSystemstats reply)
  | .updatecheck reply => Coordinator.ended "get_updatecheck" (s.getUpdatecheck reply)
  | .other name outcome endpoints =>
    Coordinator.ended name
      ({ s with jobs := { s.jobs with marks := { s.jobs.marks with staleEndpoints := endpoints } } },outcome)

/-- A source that `parse_api` can go through. -/
def iterable : Value → Bool
  | .none | .str _ | .dict _ | .list _ => true
  | value => !value.truthy

/-- The connection is there behind `system.info`, and behind the query for the update job if one is tracked. -/
def InfoRun.checksVersion (run : InfoRun Flt Time) (info : Fields) : Bool :=
  run.connected && (!SystemUpdate.tracked info || (iterable run.job && run.jobConnected))

/-- A graph is stale if the call or its own query failed, or if it has no reading; the graph of the interfaces only while
there are any. -/
def graphStale (info : Option (SystemInfo Flt Time)) (interfaceIds : List String) (reply : StatsReply Flt Err)
    (graph : String) : Bool :=
  (graph ≠ "interface" || interfaceIds ≠ []) && match reply with
    | .failed _ => graph ∈ systemstatsGraphs info
    | .raised _ => false
    | .answered stats => graph ∈ failedGraphs stats ||
      (graph ∈ systemstatsGraphs info && lacksReading stats interfaceIds graph)

/-- What an event shows: the version in an answer of `system.info`, unless it is malformed, and whether it is asked for; an
answer of `interface.query`; and the graphs that are stale. -/
inductive Seen
  | systemInfo (version : Option (Option String)) (checked : Bool)
  | interfaces (answer : Option (Dict String NetworkInterface))
  | systemStats (stale : String → Bool)

def InfoReply.seen (checked : Bool) : InfoReply Flt Time → Option Seen
  | .raised _ => none
  | .malformed => some (.systemInfo none checked)
  | .answered info => some (.systemInfo (some (info .version)) checked)

def InterfaceReply.seen : InterfaceReply → Option Seen
  | .raised _ => none
  | .malformed => some (.interfaces none)
  | .answered interfaces => some (.interfaces (some interfaces))

def StatsReply.seen (stale : String → Bool) : StatsReply Flt Err → Option Seen
  | .raised _ => none
  | _ => some (.systemStats stale)

def seen (s : Coordinator Flt Time Err) : Event Flt Time Err → Option Seen
  | .systeminfo run => run.reply.seen (run.checksVersion s.systemInfo)
  | .interface reply => reply.seen
  | .systemstats reply => reply.seen (graphStale s.data.info s.interface.keys reply)
  | _ => none

/-- A coordinator and what it has been shown, the latest first. -/
structure History (Flt Time Err : Type) where
  coordinator : Coordinator Flt Time Err
  past : List Seen

def History.fresh (Flt Time Err : Type) : History Flt Time Err := ⟨Coordinator.fresh Flt Time Err,[]⟩

def History.record (u : Decimals) (py : Interpreter) (h : History Flt Time Err) (e : Event Flt Time Err) :
    History Flt Time Err :=
  ⟨step u py h.coordinator e,(seen h.coordinator e).toList ++ h.past⟩

def system (u : Decimals) (py : Interpreter) : System (History Flt Time Err) (Event Flt Time Err) where
  init h := h = History.fresh Flt Time Err
  step h e := some (h.record u py e)

def play (u : Decimals) (py : Interpreter) (events : List (Event Flt Time Err)) : History Flt Time Err :=
  events.foldl (History.record u py) (History.fresh Flt Time Err)

theorem reachable_play (u : Decimals) (py : Interpreter) (events : List (Event Flt Time Err)) :
    (system u py).Reachable (play u py events) := by
  have hfold : ∀ h, (system u py).Reachable h → (system u py).Reachable (events.foldl (History.record u py) h) := by
    intro h hr
    induction events generalizing h with
    | nil => exact hr
    | cons e rest ih => exact ih _ (hr.step trivial rfl)
  exact hfold _ (.init rfl)

end TruenasCE.Polling
