import TruenasCE.Library.TaskTable
import TruenasCE.Library.Transition

/-! # App rows, upgrade jobs and the state of the update machinery

`ds["app"]` maps app uids to row dicts that are mutated in place. Every refresh
publishes a new map of fresh dicts, while an entity keeps the dict it cached at
its last `_refresh_data`; the published maps are therefore kept by publication
number, so that a write through a stale dict lands in the old map. An entity that is
removed leaves its coroutines behind; the next one for the app is another object.
-/
namespace TruenasCE.AppUpdate
open Library

abbrev Uid := String

/-- Truthy job ids; the falsy 0 of a row that tracks no job is `none`. -/
abbrev JobId := ℕ

/-- State text of a `core.get_jobs` row; `unknown` is also what an absent or empty text reads as. -/
inductive JobState
  | waiting | running | success | failed | aborted | unknown
  | other (text : String)
  deriving DecidableEq, Repr

def appUpdateJobActiveStates : List JobState := [.running,.waiting]

def JobState.Active (s : JobState) : Prop := s ∈ appUpdateJobActiveStates
instance (s : JobState) : Decidable s.Active := inferInstanceAs (Decidable (s ∈ _))

@[simp] theorem active_running : JobState.running.Active := by decide

/-- The fields of a job row the integration reads. -/
structure Job where
  state : JobState
  percent : ℕ := 0
  description : String := ""
  error : String := ""
  deriving DecidableEq, Repr

/-- Answer to a `core.get_jobs` query for one id: an API error, a list without
the job, or the job. -/
inductive LookupAnswer
  | failed
  | missing
  | job (j : Job)
  deriving DecidableEq, Repr

/-- State of an app; those in which a failed upgrade restarts it are told apart. -/
inductive AppState
  | running | stopped | crashed
  | other (text : String)
  deriving DecidableEq, Repr

def appRestartableStates : List AppState := [.stopped,.crashed]

/-- `_APP_UPDATE_JOB_FIELDS` of a row; the field values are
`_APP_UPDATE_JOB_DEFAULTS`. -/
structure Tracking where
  updateJobid : Option JobId := none
  updateProgress : ℕ := 0
  updateState : JobState := .unknown
  updateDescription : String := ""
  updateAdoptedJobid : Option JobId := none
  updateEndedJobid : Option JobId := none
  deriving DecidableEq, Repr

structure Row where
  state : AppState
  job : Tracking := {}
  deriving DecidableEq, Repr

abbrev AppMap := Uid → Option Row

/-- A `TrueNASAppUpdate` object: the app it is for, and which of the objects made for it. -/
structure Entity where
  uid : Uid
  number : ℕ
  deriving DecidableEq, Repr

/-- What an entity's `_data` refers to: its row in a published map, or the empty
dict `_refresh_data` falls back to, which has no `id`. -/
inductive EntityData
  | row (publication : ℕ)
  | detached (job : Tracking)
  deriving DecidableEq, Repr

/-- The job dict handed to `_async_handle_upgrade_outcome`, `unknown` being the
stand-in `_JOB_OUTCOME_UNKNOWN`. -/
inductive Outcome
  | unknown
  | known (j : Job)
  deriving DecidableEq, Repr

/-- Why a late-watched failed upgrade must not restart the app. -/
inductive RestartSkipped
  | superseded | adopted
  deriving DecidableEq, Repr

/-- Suspension points of `TrueNASAppUpdate.async_install`. -/
inductive InstallPc
  | upgrading (created : Option JobId)
  | sleeping (job : JobId)
  | polling (job polled : JobId)
  | handedOver (job : JobId)
  | resolving (job : JobId)
  | refreshing (job : JobId) (outcome : Outcome)
  | inspecting (job : JobId)
  | starting (job : JobId)
  | finishing
  deriving DecidableEq, Repr

/-- Suspension points of `_async_watch_late_upgrade`. -/
inductive WatchPc
  | waiting (finished : Bool)
  | resolving (skipped : Option RestartSkipped)
  | inspecting
  | starting
  deriving DecidableEq, Repr

inductive Task
  | install (entity : Entity) (pc : InstallPc)
  | watch (entity : Entity) (job : JobId) (restart : Bool) (pc : WatchPc)
  deriving DecidableEq, Repr

/-- Suspension points of `_refresh_app`, which runs under the app refresh lock. -/
inductive RefreshPc
  | gettingApps
  | scanning (listed : List Uid)
  | lookingUp (uid : Uid) (job : JobId) (rest : List Uid)
  deriving DecidableEq, Repr

/-- What an answer of TrueNAS says about a job. -/
inductive Report
  | missing
  | state (s : JobState)
  deriving DecidableEq, Repr

/-- A lookup that says the job is over. -/
def Report.Ends : Report → Prop
  | .missing => True
  | .state s => ¬ s.Active

instance (r : Report) : Decidable r.Ends :=
  match r with
  | .missing => inferInstanceAs (Decidable True)
  | .state s => inferInstanceAs (Decidable (¬ s.Active))

namespace LookupAnswer

def report : LookupAnswer → Option Report
  | failed => none
  | missing => some .missing
  | job j => some (.state j.state)

def found : LookupAnswer → Option Job
  | job j => some j
  | _ => none

end LookupAnswer

/-- Observable history. -/
inductive Event
  | upgraded (uid : Uid) (job : JobId)
  | reported (job : JobId) (r : Report)
  | ended (uid : Uid) (job : JobId)
  | watchStarted (task : ℕ) (uid : Uid) (job : JobId) (restart : Bool)
  | failureHandled (uid : Uid) (job : JobId)
  | startSent (task : ℕ) (uid : Uid) (job : JobId)
  | succeeded (uid : Uid) (job : JobId)
  deriving DecidableEq, Repr

structure State where
  /-- Maps published as `ds["app"]` so far; `gen` is the current one. -/
  maps : ℕ → AppMap
  gen : ℕ
  /-- `_app_upgrade_jobs_adopted` -/
  adopted : Bool
  refresh : Option RefreshPc
  /-- How many entity objects were made for an app, and the number of the one on the platform. -/
  made : Uid → ℕ
  loaded : Uid → Option ℕ
  data : Entity → EntityData
  /-- `_installs_in_flight`, which an object has none of before its first install -/
  inFlight : Entity → ℕ
  tasks : TaskTable Task
  /-- TrueNAS numbers its jobs upwards and remembers the app each one upgrades. -/
  nextJob : JobId
  jobApp : JobId → Option Uid
  log : List Event

def State.initial : State where
  maps _ _ := none
  gen := 0
  adopted := false
  refresh := none
  made _ := 0
  loaded _ := none
  data _ := .detached {}
  inFlight _ := 0
  tasks := TaskTable.empty
  nextJob := 1
  jobApp _ := none
  log := []

namespace State
variable (s : State)

/-- `ds["app"]` -/
def app : AppMap := s.maps s.gen

/-- The tracking fields read through an entity's `_data`; a missing key reads as
its falsy default. -/
def dataJob (entity : Entity) : Tracking :=
  match s.data entity with
  | .row g => ((s.maps g entity.uid).map Row.job).getD {}
  | .detached t => t

/-- Whether `_data["id"]` exists. -/
def hasId (entity : Entity) : Bool :=
  match s.data entity with
  | .row g => (s.maps g entity.uid).isSome
  | .detached _ => false

def emit (e : Event) : State := { s with log := e :: s.log }

def setTask (n : ℕ) (o : Option Task) : State := { s with tasks := s.tasks.set n o }

/-- Write into the row dict `uid` of publication `g`. -/
def writeRow (g : ℕ) (uid : Uid) (f : Tracking → Tracking) : State :=
  { s with maps := Function.update s.maps g (Function.update (s.maps g) uid
      ((s.maps g uid).map (fun r => { r with job := f r.job }))) }

def writeData (entity : Entity) (f : Tracking → Tracking) : State :=
  match s.data entity with
  | .row g => s.writeRow g entity.uid f
  | .detached t => { s with data := Function.update s.data entity (.detached (f t)) }

@[simp] theorem app_emit (e : Event) : (s.emit e).app = s.app := rfl
@[simp] theorem maps_emit (e : Event) : (s.emit e).maps = s.maps := rfl
@[simp] theorem gen_emit (e : Event) : (s.emit e).gen = s.gen := rfl
@[simp] theorem data_emit (e : Event) : (s.emit e).data = s.data := rfl
@[simp] theorem dataJob_emit (e : Event) : (s.emit e).dataJob = s.dataJob := rfl
@[simp] theorem tasks_emit (e : Event) : (s.emit e).tasks = s.tasks := rfl
@[simp] theorem log_emit (e : Event) : (s.emit e).log = e :: s.log := rfl
@[simp] theorem inFlight_emit (e : Event) : (s.emit e).inFlight = s.inFlight := rfl
@[simp] theorem nextJob_emit (e : Event) : (s.emit e).nextJob = s.nextJob := rfl
@[simp] theorem jobApp_emit (e : Event) : (s.emit e).jobApp = s.jobApp := rfl

variable (n : ℕ) (o : Option Task)
@[simp] theorem app_setTask : (s.setTask n o).app = s.app := rfl
@[simp] theorem maps_setTask : (s.setTask n o).maps = s.maps := rfl
@[simp] theorem gen_setTask : (s.setTask n o).gen = s.gen := rfl
@[simp] theorem data_setTask : (s.setTask n o).data = s.data := rfl
@[simp] theorem dataJob_setTask : (s.setTask n o).dataJob = s.dataJob := rfl
@[simp] theorem tasks_setTask : (s.setTask n o).tasks = s.tasks.set n o := rfl
@[simp] theorem log_setTask : (s.setTask n o).log = s.log := rfl
@[simp] theorem inFlight_setTask : (s.setTask n o).inFlight = s.inFlight := rfl
@[simp] theorem nextJob_setTask : (s.setTask n o).nextJob = s.nextJob := rfl
@[simp] theorem jobApp_setTask : (s.setTask n o).jobApp = s.jobApp := rfl

variable (uid : Uid) (entity : Entity) (f : Tracking → Tracking)
@[simp] theorem gen_writeRow (g : ℕ) : (s.writeRow g uid f).gen = s.gen := rfl
@[simp] theorem data_writeRow (g : ℕ) : (s.writeRow g uid f).data = s.data := rfl
@[simp] theorem tasks_writeRow (g : ℕ) : (s.writeRow g uid f).tasks = s.tasks := rfl
@[simp] theorem log_writeRow (g : ℕ) : (s.writeRow g uid f).log = s.log := rfl
@[simp] theorem inFlight_writeRow (g : ℕ) : (s.writeRow g uid f).inFlight = s.inFlight := rfl
@[simp] theorem nextJob_writeRow (g : ℕ) : (s.writeRow g uid f).nextJob = s.nextJob := rfl
@[simp] theorem jobApp_writeRow (g : ℕ) : (s.writeRow g uid f).jobApp = s.jobApp := rfl

theorem maps_writeRow (g h : ℕ) (u : Uid) : (s.writeRow g uid f).maps h u =
    if h = g ∧ u = uid then (s.maps h u).map (fun r => { r with job := f r.job }) else s.maps h u := by
  by_cases hg : h = g
  · subst hg
    by_cases hu : u = uid
    · subst hu
      simp [writeRow]
    · simp [writeRow,hu]
  · simp [writeRow,hg]

@[simp] theorem gen_writeData : (s.writeData entity f).gen = s.gen := by
  unfold writeData; split <;> rfl
@[simp] theorem tasks_writeData : (s.writeData entity f).tasks = s.tasks := by
  unfold writeData; split <;> rfl
@[simp] theorem log_writeData : (s.writeData entity f).log = s.log := by
  unfold writeData; split <;> rfl
@[simp] theorem inFlight_writeData : (s.writeData entity f).inFlight = s.inFlight := by
  unfold writeData; split <;> rfl
@[simp] theorem nextJob_writeData : (s.writeData entity f).nextJob = s.nextJob := by
  unfold writeData; split <;> rfl
@[simp] theorem jobApp_writeData : (s.writeData entity f).jobApp = s.jobApp := by
  unfold writeData; split <;> rfl

/-- A write through `_data` reaches `ds["app"]` exactly when `_data` is the
published row. -/
theorem app_writeData (u : Uid) : (s.writeData entity f).app u =
    if s.data entity = .row s.gen ∧ u = entity.uid then (s.app u).map (fun r => { r with job := f r.job })
    else s.app u := by
  unfold app writeData
  cases h : s.data entity with
  | row g =>
    simp only [maps_writeRow,gen_writeRow,EntityData.row.injEq]
    by_cases hg : s.gen = g
    · simp [hg]
    · simp [hg,Ne.symm hg]
  | detached t => simp

theorem maps_writeData (g : ℕ) (u : Uid) : (s.writeData entity f).maps g u =
    if s.data entity = .row g ∧ u = entity.uid then (s.maps g u).map (fun r => { r with job := f r.job })
    else s.maps g u := by
  unfold writeData
  cases h : s.data entity with
  | row h => simp [maps_writeRow,eq_comm]
  | detached t => simp

theorem data_writeData (e : Entity) : (s.writeData entity f).data e = match s.data entity with
    | .row _ => s.data e
    | .detached t => if e = entity then .detached (f t) else s.data e := by
  unfold writeData
  cases h : s.data entity with
  | row g => rfl
  | detached t => simp [Function.update_apply]

end State
end TruenasCE.AppUpdate
