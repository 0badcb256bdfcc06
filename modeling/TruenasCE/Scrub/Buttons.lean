import TruenasCE.Library.TaskTable
import TruenasCE.Library.Transition

/-! # Scrub buttons

Presses of the scrub buttons and refreshes of the pools by polls and pushes are tasks that
suspend where the code awaits a lock or an answer. The history has the latest event first.
-/
namespace TruenasCE.Scrub
open Library

structure Pool where
  name : Option String
  scanFunction : Option String
  scrubState : Option String
  scrubPause : Bool := false
  deriving DecidableEq, Repr

def poolScrubState (pool : Pool) : Option String :=
  match pool.scrubState with
  | none => none
  | some state => if state = "SCANNING" ∧ pool.scrubPause = true then some "PAUSED" else some state

/-- `_scrub_state` of a press, from the pools of `coordinator.data`. -/
def scrubState (pools : List Pool) (poolName : String) : Option String :=
  match pools.find? (fun pool => pool.name = some poolName) with
  | none => none
  | some pool => if pool.scanFunction ≠ some "SCRUB" then none else poolScrubState pool

inductive Button
  | scrubRun
  | scrubPause
  | scrubResume
  | scrubStop
  deriving DecidableEq, Repr

def Button.key : Button → String
  | .scrubRun => "scrub_run"
  | .scrubPause => "scrub_pause"
  | .scrubResume => "scrub_resume"
  | .scrubStop => "scrub_stop"

def Button.scrubAction : Button → String
  | .scrubRun => "START"
  | .scrubPause => "PAUSE"
  | .scrubResume => "START"
  | .scrubStop => "STOP"

/-- Empty: the button acts without a check. -/
def Button.scrubStates : Button → List String
  | .scrubRun => []
  | .scrubPause => ["SCANNING"]
  | .scrubResume => ["PAUSED"]
  | .scrubStop => ["SCANNING","PAUSED"]

/-- How `state.get_pool` ends: the pools it returns, unless it raises, and whether "pool" is among
`stale_endpoints` then. -/
structure Answer where
  pools : Option (List Pool)
  stale : Bool
  deriving DecidableEq, Repr

/-- The re-read is none to act on: it raised, or the pools are stale. -/
def Answer.Unusable (a : Answer) : Prop := a.pools = none ∨ a.stale = true

instance (a : Answer) : Decidable a.Unusable := inferInstanceAs (Decidable (_ ∨ _))

/-- Where a press is suspended: at `scrub_lock`, at the lock of the pools, at the re-read, at
`pool.scrub.scrub`, and at the lock and the re-read behind it. -/
inductive Phase
  | queued
  | waiting
  | reading
  | sending
  | waitingAfter
  | readingAfter
  deriving DecidableEq, Repr

inductive Task
  | refresh (reading : Bool)
  | press (button : Button) (poolName : String) (phase : Phase)
  deriving DecidableEq, Repr

structure PressError where
  translationKey : String
  pool : String
  deriving DecidableEq, Repr

inductive Event
  | entered (n : ℕ)
  | left (n : ℕ)
  | requested (n : ℕ)
  | landed (n : ℕ) (answer : Answer)
  | checked (n : ℕ) (state : Option String)
  | sent (n : ℕ) (button : Button) (poolName : String)
  | raised (n : ℕ) (error : PressError)
  deriving DecidableEq, Repr

structure State where
  pools : List Pool
  stale : Bool
  scrubLock : Option ℕ
  refreshLock : Option ℕ
  tasks : TaskTable Task
  history : List Event

def initial : State := ⟨[],false,none,none,TaskTable.empty,[]⟩

inductive Action
  | refresh
  | press (button : Button) (poolName : Option String) (taskId : Option ℕ)
  | take (n : ℕ)
  | answer (n : ℕ) (a : Answer)
  | result (n : ℕ) (taken : Bool)
  | cancel (n : ℕ)
  deriving DecidableEq, Repr

namespace State
variable (s : State) (n : ℕ) (button : Button) (poolName : String)

def record (e : Event) : State := { s with history := e :: s.history }

def goTo (t : Option Task) : State := { s with tasks := s.tasks.set n t }

/-- `async with scrub_lock` ends with the press. -/
def leave : State := ({ s with scrubLock := none }.record (.left n)).goTo n none

def fail (translationKey : String) : State := (s.record (.raised n ⟨translationKey,poolName⟩)).leave n

/-- `_refresh_pool` assigns the pools, and the lock is released. -/
def land (a : Answer) : State :=
  { s with pools := a.pools.getD s.pools, stale := a.stale, refreshLock := none }.record (.landed n a)

def send : State := (s.record (.sent n button poolName)).goTo n (some (.press button poolName .sending))

/-- The lock of the pools is taken and `state.get_pool` called. -/
def request (t : Task) : State := ({ s with refreshLock := some n }.record (.requested n)).goTo n (some t)

/-- `_send_scrub_action` up to its first suspension; `scrub_lock` has just been taken. -/
def enter : State :=
  let entered := { s with scrubLock := some n }.record (.entered n)
  if button.scrubStates = [] then entered.send n button poolName
  else entered.goTo n (some (.press button poolName .waiting))

/-- `_send_scrub_action` behind the re-read of its check. Nothing is awaited between the landing
of the answer and `query`. -/
def check (a : Answer) : State :=
  let landed := s.land n a
  if a.pools = none ∨ landed.stale = true then landed.fail n poolName "scrub_failed"
  else
    let checked := landed.record (.checked n (scrubState landed.pools poolName))
    if (scrubState landed.pools poolName).all (fun state => state ∉ button.scrubStates)
    then checked.fail n poolName (button.key ++ "_not_possible")
    else checked.send n button poolName

def take : Option State :=
  match s.tasks.get n with
  | some (.refresh false) => if s.refreshLock = none then some (s.request n (.refresh true)) else none
  | some (.press button poolName .queued) => if s.scrubLock = none then some (s.enter n button poolName) else none
  | some (.press button poolName .waiting) =>
    if s.refreshLock = none then some (s.request n (.press button poolName .reading)) else none
  | some (.press button poolName .waitingAfter) =>
    if s.refreshLock = none then some (s.request n (.press button poolName .readingAfter)) else none
  | _ => none

def answer (a : Answer) : Option State :=
  match s.tasks.get n with
  | some (.refresh true) => some ((s.land n a).goTo n none)
  | some (.press button poolName .reading) => some (s.check n button poolName a)
  | some (.press _ _ .readingAfter) => some ((s.land n a).leave n)
  | _ => none

def result (taken : Bool) : Option State :=
  match s.tasks.get n with
  | some (.press button poolName .sending) =>
    some (if taken then s.goTo n (some (.press button poolName .waitingAfter)) else s.fail n poolName "scrub_failed")
  | _ => none

def cancel : Option State :=
  match s.tasks.get n with
  | none => none
  | some _ =>
    let released := if s.refreshLock = some n then { s with refreshLock := none } else s
    some (if s.scrubLock = some n then released.leave n else released.goTo n none)

end State

/-- `async_press`: nothing happens without a pool name or a task id. -/
def State.asyncPress (s : State) (button : Button) (poolName : Option String) (taskId : Option ℕ) : State :=
  match poolName with
  | none => s
  | some poolName =>
    if poolName = "" ∨ taskId = none then s
    else { s with tasks := s.tasks.spawn (.press button poolName .queued) }

def step (s : State) : Action → Option State
  | .refresh => some { s with tasks := s.tasks.spawn (.refresh false) }
  | .press button poolName taskId => some (s.asyncPress button poolName taskId)
  | .take n => s.take n
  | .answer n a => s.answer n a
  | .result n taken => s.result n taken
  | .cancel n => s.cancel n

def system : System State Action := ⟨fun s => s = initial,step⟩

end TruenasCE.Scrub
