import TruenasCE.AppUpdate.Coordinator

/-! # The update entity's side

The coroutine segments of `TrueNASAppUpdate` between two suspension points, and the
synchronous callbacks through which the entity reads its cached row.
-/
namespace TruenasCE.AppUpdate
open Library

/-- `_async_install_upgrade` stores the job id returned by `app.upgrade`; the marker
is dropped when a poll adopted this very job before. -/
def storeUpgradeJob (job : JobId) (vals : Tracking) : Tracking :=
  { vals with
    updateAdoptedJobid := if vals.updateAdoptedJobid = some job then none else vals.updateAdoptedJobid
    updateJobid := some job
    updateState := .running
    updateProgress := 0
    updateDescription := "" }

def clearAdopted (vals : Tracking) : Tracking := { vals with updateAdoptedJobid := none }

namespace Task

def entity : Task → Entity
  | install entity _ => entity
  | watch entity _ _ _ => entity

def uid (task : Task) : Uid := task.entity.uid

/-- Where the coroutine stands once nothing is left to do: an install still has its
`finally` block ahead, a watch is gone. -/
def returned : Task → Option Task
  | install entity _ => some (install entity .finishing)
  | watch _ _ _ _ => none

def inspectingInstance (job : JobId) : Task → Task
  | install entity _ => install entity (.inspecting job)
  | watch entity _ restart _ => watch entity job restart .inspecting

def startingApp (job : JobId) : Task → Task
  | install entity _ => install entity (.starting job)
  | watch entity _ restart _ => watch entity job restart .starting

end Task

namespace State
variable (s : State)

def refreshData (entity : Entity) : State :=
  { s with data := Function.update s.data entity (if (s.app entity.uid).isSome then .row s.gen else .detached {}) }

def checkJob (uid : Uid) (job : JobId) : Bool := decide (s.tracked uid ≠ some job)

def spawnWatch (entity : Entity) (job : JobId) (restart : Bool) : State :=
  { s with
    tasks := s.tasks.spawn (.watch entity job restart (.waiting (s.checkJob entity.uid job)))
    log := .watchStarted s.tasks.next entity.uid job restart :: s.log }

def watchAdoptedUpgrade (entity : Entity) : State :=
  match (s.dataJob entity).updateAdoptedJobid with
  | none => s
  | some job =>
    if s.inFlight entity ≠ 0 then s
    else (s.writeData entity clearAdopted).spawnWatch entity job false

/-- `_async_track_upgrade_job` goes round its loop after a poll that ended nothing, or
gives up; `_async_install_upgrade` then hands over to a watch or looks the job up. -/
def afterPoll (n : ℕ) (entity : Entity) (job : JobId) (late : Bool) : State :=
  if (s.dataJob entity).updateJobid = none then s.setTask n (some (.install entity (.resolving job)))
  else if !late then s.setTask n (some (.install entity (.sleeping job)))
  else if s.hasId entity then (s.spawnWatch entity job true).setTask n (some (.install entity (.handedOver job)))
  else s.setTask n (some (.install entity .finishing))

def pollUpgradeJob (n : ℕ) (entity : Entity) (job : JobId) (late : Bool) : State :=
  if s.hasId entity then
    match s.tracked entity.uid with
    | some k => s.setTask n (some (.install entity (.polling job k)))
    | none => s.afterPoll n entity job late
  else s.setTask n (some (.install entity .finishing))

/-- The answer about the polled job `k` reaches an install of `job`. -/
def pollAnswered (n : ℕ) (entity : Entity) (job k : JobId) (ans : LookupAnswer) (late : Bool) : State :=
  match s.refreshAppUpdateJob entity.uid k ans with
  | (t,some j) =>
    if j.state.Active then t.afterPoll n entity job late
    else t.setTask n (some (.install entity (.refreshing job (.known j))))
  | (t,none) => t.afterPoll n entity job late

def emitLookup (job : JobId) : LookupAnswer → State
  | .failed => s
  | .missing => s.emit (.reported job .missing)
  | .job j => s.emit (.reported job (.state j.state))

/-- The fallback of `_async_resolve_untracked_job` to the recorded final state. -/
def recordedOutcome (entity : Entity) (job : JobId) : Outcome :=
  let data := s.dataJob entity
  if data.updateJobid ≠ none ∧ data.updateJobid ≠ some job then .unknown
  else if data.updateEndedJobid ≠ some job then .unknown
  else if data.updateState = .unknown ∨ data.updateState.Active then .unknown
  else .known { state := data.updateState }

/-- `_async_resolve_untracked_job` from its answer on; the warning about a lookup
without result needs the id of the app. -/
def resolveUntrackedJob (entity : Entity) (job : JobId) : LookupAnswer → Option Outcome
  | .job j => some (.known j)
  | _ => if s.hasId entity then some (s.recordedOutcome entity job) else none

/-- `_late_restart_skipped`, which needs the id of the app for its log line. -/
def lateRestartSkipped (entity : Entity) (job : JobId) (restart : Bool) : Option (Option RestartSkipped) :=
  let newer := (s.dataJob entity).updateJobid
  if newer ≠ none ∧ newer ≠ some job then if s.hasId entity then some (some .superseded) else none
  else some (if restart then none else some .adopted)

def newerEndedJob (entity : Entity) (job : JobId) : Bool :=
  (s.dataJob entity).updateEndedJobid.any (fun ended => decide (job < ended))

def handleUpgradeOutcome (n : ℕ) (task : Task) (job : JobId) (skipped : Option RestartSkipped) :
    Outcome → State
  | .unknown => s.setTask n task.returned
  | .known j =>
    if j.state = .success then (s.emit (.succeeded task.uid job)).setTask n task.returned
    else (s.emit (.failureHandled task.uid job)).setTask n
      (if skipped = none then some (task.inspectingInstance job) else task.returned)

/-- `_async_restart_after_failed_upgrade` from the answer about the instance on. -/
def restartAfterFailedUpgrade (n : ℕ) (task : Task) (job : JobId) : Option AppState → State
  | none => s.setTask n task.returned
  | some state =>
    if state ∈ appRestartableStates then
      (s.emit (.startSent n task.uid job)).setTask n (some (task.startingApp job))
    else s.setTask n task.returned

def watchFinished (n : ℕ) (entity : Entity) (job : JobId) (restart : Bool) : State :=
  if (s.app entity.uid).isNone then s.setTask n none
  else s.setTask n ((s.lateRestartSkipped entity job restart).map
    (fun skipped => .watch entity job restart (.resolving skipped)))

/-- `_async_watch_late_upgrade` from the answer of its lookup on. -/
def watchResolved (n : ℕ) (entity : Entity) (job : JobId) (restart : Bool) (skipped : Option RestartSkipped) :
    Outcome → State
  | .unknown =>
    if s.newerEndedJob entity job then s.setTask n none
    else s.handleUpgradeOutcome n (.watch entity job restart (.resolving skipped)) job skipped .unknown
  | .known j =>
    if j.state.Active then s.setTask n none
    else if s.newerEndedJob entity job then s.setTask n none
    else s.handleUpgradeOutcome n (.watch entity job restart (.resolving skipped)) job skipped (.known j)

end State
end TruenasCE.AppUpdate
