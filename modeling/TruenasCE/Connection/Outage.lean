import Mathlib.Order.Basic
import Mathlib.Data.Int.Notation
import TruenasCE.Library.Transition
import TruenasCE.Library.Past

/-! # Connection failures in the log

`_async_ensure_connected` of a coordinator that may be created anew while its entry is set up. What
it logs is told by the history of polls and announcements alone.
-/
namespace TruenasCE.Connection
open Library

def expectedDisconnectGrace : ℤ := 15 * 60 * 1000000

def errInvalidKey : String := "invalid_key"

inductive Line
  | failed (error : String)
  /-- ERROR: `TrueNAS connection failure changed` -/
  | failureChanged (before : Option String) (after : String)
  /-- DEBUG: `TrueNAS connection still failing` -/
  | stillFailing (error : String)
  /-- DEBUG: `TrueNAS connection failed following requested` -/
  | failedFollowing (reason error : String)
  /-- INFO: `TrueNAS connection recovered`, following a request -/
  | recovered (reason : Option String)
  deriving DecidableEq, Repr

namespace Line

def isError : Line → Bool
  | failed _ | failureChanged _ _ => true
  | _ => false

def isRecovery : Line → Bool
  | recovered _ => true
  | _ => false

end Line

structure Coordinator where
  failing : Bool
  failingError : Option String
  failingReason : Option String := none
  expectedReason : Option String := none
  expectedDeadline : Option ℤ := none
  deriving DecidableEq, Repr

/-- What `api.connect` comes to. -/
inductive Outcome
  | connected
  | refused (error : String)
  | raised
  deriving DecidableEq, Repr

inductive Event
  | polled
  /-- A poll that connects. An announcement meanwhile is one behind it, since the poll has taken the
  pending one before it waits. -/
  | attempt (now : ℤ) (outcome : Outcome)
  | announce (reason : String) (now : ℤ)
  | setUp
  /-- The first refresh has failed, and the entry is set up again. -/
  | recreate
  deriving DecidableEq, Repr

inductive Raised
  | updateFailed
  | authFailed
  deriving DecidableEq, Repr

/-- What `_async_ensure_connected` raises. -/
def Event.raises : Event → Option Raised
  | .attempt _ (.refused error) => if error = errInvalidKey then some .authFailed else some .updateFailed
  | .attempt _ .raised => some .updateFailed
  | _ => none

abbrev History := List (Event × List Line)

variable {φ : Type*} [DecidableEq φ] (fp : φ)

/-- The marker is that of the entry in `hass.data`, with a fingerprint of its connection. -/
structure State (φ : Type*) where
  coordinator : Coordinator
  marker : Option (φ × String) := none
  loaded : Bool := false
  history : History := []

def seedConnectionFailing : Option (φ × String) → Option String
  | some (fingerprint,error) => if fingerprint = fp then some error else none
  | none => none

def Coordinator.create (marker : Option (φ × String)) : Coordinator where
  failing := (seedConnectionFailing fp marker).isSome
  failingError := seedConnectionFailing fp marker

namespace Coordinator
variable (c : Coordinator)

/-- The reason that `_consume_expected_disconnect_reason` returns. -/
def expected (now : ℤ) : Option String :=
  match c.expectedReason, c.expectedDeadline with
  | some reason, some deadline => if deadline ≤ now then none else some reason
  | _, _ => none

def clearExpected : Coordinator := { c with expectedReason := none, expectedDeadline := none }

def noteExpectedDisconnect (reason : String) (now : ℤ) : Coordinator :=
  { c with expectedReason := some reason, expectedDeadline := some (now + expectedDisconnectGrace) }

end Coordinator

namespace State
variable (s : State φ)

/-- `_set_connection_failing(True, error)`, or `_set_connection_failing(False)` without an error -/
def setConnectionFailing (error : Option String) : State φ :=
  { s with
    coordinator := { s.coordinator with failing := error.isSome, failingError := error }
    marker := error.map (fun error => (fp,error)) }

def withReason (reason : Option String) : State φ :=
  { s with coordinator := { s.coordinator with failingReason := reason } }

def noteConnectionRecovered : State φ × List Line :=
  if s.coordinator.failing then
    ((s.setConnectionFailing fp none).withReason none,
      [.recovered (s.coordinator.failingReason.filter (fun reason => reason ≠ ""))])
  else (s,[])

/-- `_async_ensure_connected` behind `api.connect`, with the reason taken before -/
def connectEnds (expected : Option String) : Outcome → State φ × List Line
  | .connected =>
    let first := if s.coordinator.failing then [] else expected.toList.map (fun reason => .recovered (some reason))
    ((s.noteConnectionRecovered fp).1,first ++ (s.noteConnectionRecovered fp).2)
  | .raised => (s,[])
  | .refused error =>
    if error = errInvalidKey then (s,[])
    else if s.coordinator.failing then
      if some error ≠ s.coordinator.failingError then
        (s.setConnectionFailing fp (some error),[.failureChanged s.coordinator.failingError error])
      else (s,[.stillFailing error])
    else
      match expected with
      | some reason =>
        ((s.setConnectionFailing fp (some error)).withReason (some reason),[.failedFollowing reason error])
      | none => (s.setConnectionFailing fp (some error),[.failed error])

/-- The state in which `api.connect` is awaited. -/
def waiting : State φ := { s with coordinator := s.coordinator.clearExpected }

/-- `_async_ensure_connected` without a connection -/
def attempt (now : ℤ) (outcome : Outcome) : State φ × List Line :=
  s.waiting.connectEnds fp (s.coordinator.expected now) outcome

def handle : Event → Option (State φ × List Line)
  | .polled => some (s.noteConnectionRecovered fp)
  | .attempt now outcome => some (s.attempt fp now outcome)
  | .announce reason now =>
    if s.loaded then some ({ s with coordinator := s.coordinator.noteExpectedDisconnect reason now },[]) else none
  | .setUp =>
    match s.history with
    | (e,_) :: _ => if e.raises = none ∧ s.loaded = false then some ({ s with loaded := true },[]) else none
    | [] => none
  | .recreate => if s.loaded then none else some ({ s with coordinator := Coordinator.create fp s.marker },[])

def record (e : Event) (ends : State φ × List Line) : State φ := { ends.1 with history := (e,ends.2) :: s.history }

def step (e : Event) : Option (State φ) := (s.handle fp e).map (s.record e)

end State

def connections : System (State φ) Event where
  init s := seedConnectionFailing fp s.marker = none ∧ s.coordinator = Coordinator.create fp s.marker ∧
    s.loaded = false ∧ s.history = []
  step s e := s.step fp e

def failures : History → List String
  | [] => []
  | (.polled,_) :: _ => []
  | (.attempt _ .connected,_) :: _ => []
  | (.attempt _ (.refused error),_) :: past => if error = errInvalidKey then failures past else error :: failures past
  | _ :: past => failures past

/-- The announcement that is armed, the latest one, unless an attempt has used it up or its grace is over. -/
def pending (now : ℤ) : History → Option String
  | [] => none
  | (.announce reason time,_) :: _ => if now < time + expectedDisconnectGrace then some reason else none
  | (.attempt _ _,_) :: _ => none
  | _ :: past => pending now past

def mustLog (past : History) (now : ℤ) (error : String) : Bool :=
  match failures past with
  | latest :: _ => error ≠ latest
  | [] => (pending now past).isNone

def errors (lines : List Line) : ℕ := lines.countP Line.isError
def recoveries (lines : List Line) : ℕ := lines.countP Line.isRecovery

def Event.succeeds : Event → Bool
  | .polled | .attempt _ .connected => true
  | _ => false

/-- The latest event logged an error exactly if it must, and a recovery exactly if it ends an outage in which an
attempt failed. -/
def Told : History → Prop
  | [] => True
  | (.attempt now (.refused error),lines) :: past =>
    errors lines = (if error ≠ errInvalidKey ∧ mustLog past now error = true then 1 else 0) ∧ recoveries lines = 0
  | (e,lines) :: past =>
    errors lines = 0 ∧ (e.succeeds = true → failures past ≠ [] → recoveries lines = 1) ∧
      (e.succeeds = false → recoveries lines = 0)

structure Agree (s : State φ) : Prop where
  flag : s.coordinator.failing = s.coordinator.failingError.isSome
  marker : seedConnectionFailing fp s.marker = s.coordinator.failingError

structure Kept (s : State φ) : Prop where
  agree : Agree fp s
  error : s.coordinator.failingError = (failures s.history).head?
  armed : ∀ now, s.coordinator.expected now = pending now s.history
  /-- Without entities nothing is announced. -/
  idle : s.loaded = false → ∀ now, pending now s.history = none
  told : Always Told s.history

section Runs
variable {fp} {s t : State φ} {e : Event} {ends : State φ × List Line} {lines : List Line} {now : ℤ}

theorem expected_noteExpectedDisconnect (c : Coordinator) (reason : String) (time : ℤ) :
    (c.noteExpectedDisconnect reason time).expected now =
      if now < time + expectedDisconnectGrace then some reason else none := by
  unfold Coordinator.expected Coordinator.noteExpectedDisconnect
  by_cases h : now < time + expectedDisconnectGrace
  · simp [h,Int.not_le.mpr h]
  · simp [h,Int.not_lt.mp h]

@[simp] theorem seedConnectionFailing_map (error : Option String) :
    seedConnectionFailing fp (error.map (fun error => (fp,error))) = error := by
  cases error with
  | none => rfl
  | some error => simp [seedConnectionFailing]

theorem agree_setConnectionFailing (error : Option String) : Agree fp (s.setConnectionFailing fp error) :=
  ⟨rfl,seedConnectionFailing_map error⟩

theorem Kept.failing_iff (h : Kept fp s) : s.coordinator.failing = true ↔ failures s.history ≠ [] := by
  rw [h.agree.flag,h.error,List.isSome_head?]

theorem noteConnectionRecovered_cases (h : Agree fp s) :
    Agree fp (s.noteConnectionRecovered fp).1 ∧ (s.noteConnectionRecovered fp).1.coordinator.failingError = none ∧
      (∀ now, (s.noteConnectionRecovered fp).1.coordinator.expected now = s.coordinator.expected now) ∧
      (s.noteConnectionRecovered fp).1.loaded = s.loaded ∧ errors (s.noteConnectionRecovered fp).2 = 0 ∧
      recoveries (s.noteConnectionRecovered fp).2 = if s.coordinator.failing then 1 else 0 := by
  unfold State.noteConnectionRecovered
  split
  · exact ⟨⟨rfl,rfl⟩,rfl,fun _ => rfl,rfl,rfl,rfl⟩
  · rename_i hf
    refine ⟨h,?_,fun _ => rfl,rfl,rfl,rfl⟩
    rw [h.flag] at hf
    simpa using hf

theorem Kept.record (h : Kept fp s) (ha : Agree fp ends.1)
    (herror : ends.1.coordinator.failingError = (failures ((e,ends.2) :: s.history)).head?)
    (harmed : ∀ now, ends.1.coordinator.expected now = pending now ((e,ends.2) :: s.history))
    (hidle : ends.1.loaded = false → ∀ now, pending now ((e,ends.2) :: s.history) = none)
    (htold : Told ((e,ends.2) :: s.history)) : Kept fp (s.record e ends) :=
  ⟨⟨ha.flag,ha.marker⟩,herror,harmed,hidle,always_cons.mpr ⟨htold,h.told⟩⟩

theorem kept_polled (h : Kept fp s) : Kept fp (s.record .polled (s.noteConnectionRecovered fp)) := by
  obtain ⟨ha,herror,hexpected,hloaded,herrors,hrecoveries⟩ := noteConnectionRecovered_cases h.agree
  refine h.record ha herror (fun now => ?_) (fun hl => ?_) ⟨herrors,fun _ hf => ?_,fun hs => by cases hs⟩
  · rw [hexpected,h.armed]
    rfl
  · rw [hloaded] at hl
    exact h.idle hl
  · rw [hrecoveries,if_pos (h.failing_iff.mpr hf)]

theorem agree_waiting (h : Agree fp s) : Agree fp s.waiting := ⟨h.flag,h.marker⟩

theorem Kept.recordAttempt (h : Kept fp s) {outcome : Outcome} (ha : Agree fp ends.1)
    (herror : ends.1.coordinator.failingError = (failures ((.attempt now outcome,ends.2) :: s.history)).head?)
    (hexpected : ∀ now, ends.1.coordinator.expected now = none)
    (htold : Told ((.attempt now outcome,ends.2) :: s.history)) : Kept fp (s.record (.attempt now outcome) ends) :=
  h.record ha herror hexpected (fun _ _ => rfl) htold

/-- An attempt that raises or is refused for the key logs nothing. -/
theorem kept_silent (h : Kept fp s) {outcome : Outcome}
    (hfailures : failures ((.attempt now outcome,[]) :: s.history) = failures s.history)
    (htold : Told ((.attempt now outcome,[]) :: s.history)) :
    Kept fp (s.record (.attempt now outcome) (s.waiting,[])) := by
  refine h.recordAttempt (agree_waiting h.agree) ?_ (fun _ => rfl) htold
  rw [hfailures]
  exact h.error

omit [DecidableEq φ] in
theorem attempt_connected : s.attempt fp now .connected = ((s.waiting.noteConnectionRecovered fp).1,
    (if s.coordinator.failing then [] else (s.coordinator.expected now).toList.map (fun reason =>
      .recovered (some reason))) ++
      (s.waiting.noteConnectionRecovered fp).2) := rfl

theorem kept_connected (h : Kept fp s) :
    Kept fp (s.record (.attempt now .connected) (s.attempt fp now .connected)) := by
  obtain ⟨ha,herror,hexpected,_,herrors,hrecoveries⟩ := noteConnectionRecovered_cases (agree_waiting h.agree)
  rw [attempt_connected]
  refine h.recordAttempt ha herror hexpected ⟨?_,fun _ hf => ?_,fun hs => by cases hs⟩
  · unfold errors at herrors ⊢
    rw [List.countP_append,herrors,Nat.add_zero]
    split
    · rfl
    · cases s.coordinator.expected now <;> rfl
  · have hfailing : s.coordinator.failing = true := h.failing_iff.mpr hf
    unfold recoveries at hrecoveries ⊢
    rw [List.countP_append,hrecoveries,if_pos hfailing,if_pos (show s.waiting.coordinator.failing = true from hfailing)]
    rfl

theorem failures_refused {error : String} (hkey : error ≠ errInvalidKey) (past : History) :
    failures ((.attempt now (.refused error),lines) :: past) = error :: failures past := if_neg hkey

theorem Kept.recordRefused (h : Kept fp s) {error : String} (hkey : error ≠ errInvalidKey) (ha : Agree fp ends.1)
    (herror : ends.1.coordinator.failingError = some error)
    (hexpected : ∀ now, ends.1.coordinator.expected now = none)
    (herrors : errors ends.2 = if mustLog s.history now error = true then 1 else 0)
    (hrecoveries : recoveries ends.2 = 0) : Kept fp (s.record (.attempt now (.refused error)) ends) := by
  refine h.recordAttempt ha ?_ hexpected ⟨?_,hrecoveries⟩
  · rw [failures_refused hkey,herror]
    rfl
  · rw [herrors]
    simp [hkey]

theorem kept_refused_of_failing (h : Kept fp s) {error : String} (hkey : error ≠ errInvalidKey)
    (hf : s.coordinator.failing = true) :
    Kept fp (s.record (.attempt now (.refused error)) (s.attempt fp now (.refused error))) := by
  obtain ⟨latest,rest,hlatest⟩ := List.exists_cons_of_ne_nil (h.failing_iff.mp hf)
  have herror : s.coordinator.failingError = some latest := by rw [h.error,hlatest,List.head?_cons]
  have hmust : mustLog s.history now error = decide (error ≠ latest) := by simp [mustLog,hlatest]
  have hcleared : s.waiting.coordinator.failing = true := hf
  have hsame : s.waiting.coordinator.failingError = some latest := herror
  simp only [State.attempt,State.connectEnds,if_neg hkey,hcleared,if_true,hsame]
  by_cases hne : error = latest
  · subst hne
    rw [if_neg (by simp)]
    exact h.recordRefused hkey (agree_waiting h.agree) herror (fun _ => rfl) (by simp [hmust,errors,Line.isError]) rfl
  · rw [if_pos (by simpa using hne)]
    exact h.recordRefused hkey (agree_setConnectionFailing (some error)) rfl (fun _ => rfl)
      (by simp [hmust,hne,errors,Line.isError]) rfl

theorem kept_refused_of_not_failing (h : Kept fp s) {error : String} (hkey : error ≠ errInvalidKey)
    (hf : s.coordinator.failing = false) :
    Kept fp (s.record (.attempt now (.refused error)) (s.attempt fp now (.refused error))) := by
  have hnone : failures s.history = [] := by
    by_contra hne
    rw [h.failing_iff.mpr hne] at hf
    cases hf
  have hmust : mustLog s.history now error = (s.coordinator.expected now).isNone := by simp [mustLog,hnone,h.armed]
  have hcleared : s.waiting.coordinator.failing = false := hf
  have hset : Agree fp (s.waiting.setConnectionFailing fp (some error)) := agree_setConnectionFailing (some error)
  simp only [State.attempt,State.connectEnds,if_neg hkey,hcleared,Bool.false_eq_true,if_false]
  cases hexpected : s.coordinator.expected now with
  | some reason =>
    exact h.recordRefused hkey ⟨hset.flag,hset.marker⟩ rfl (fun _ => rfl)
      (by simp [hmust,hexpected,errors,Line.isError]) rfl
  | none => exact h.recordRefused hkey hset rfl (fun _ => rfl) (by simp [hmust,hexpected,errors,Line.isError]) rfl

theorem kept_attempt (h : Kept fp s) (outcome : Outcome) :
    Kept fp (s.record (.attempt now outcome) (s.attempt fp now outcome)) := by
  cases outcome with
  | connected => exact kept_connected h
  | raised => exact kept_silent h rfl ⟨rfl,(fun hs => by cases hs),fun _ => rfl⟩
  | refused error =>
    by_cases hkey : error = errInvalidKey
    · subst hkey
      exact kept_silent h rfl ⟨rfl,rfl⟩
    · cases hf : s.coordinator.failing with
      | true => exact kept_refused_of_failing h hkey hf
      | false => exact kept_refused_of_not_failing h hkey hf

theorem kept_recreate (h : Kept fp s) (hl : s.loaded = false) :
    Kept fp (s.record .recreate ({ s with coordinator := Coordinator.create fp s.marker },[])) := by
  refine h.record ⟨rfl,rfl⟩ ?_ (fun now => ?_) (fun _ => h.idle hl) ⟨rfl,(fun hs => by cases hs),fun _ => rfl⟩
  · exact h.agree.marker.trans h.error
  · exact (h.idle hl now).symm

theorem kept_announce (h : Kept fp s) (hl : s.loaded = true) (reason : String) (time : ℤ) :
    Kept fp (s.record (.announce reason time)
      ({ s with coordinator := s.coordinator.noteExpectedDisconnect reason time },[])) := by
  refine h.record ⟨h.agree.flag,h.agree.marker⟩ h.error (fun now => ?_) (fun hn => ?_)
    ⟨rfl,(fun hs => by cases hs),fun _ => rfl⟩
  · exact expected_noteExpectedDisconnect s.coordinator reason time
  · rw [hl] at hn
    cases hn

theorem kept_step (h : Kept fp s) (hs : s.step fp e = some t) : Kept fp t := by
  obtain ⟨ends,hends,rfl⟩ := Option.map_eq_some_iff.mp hs
  cases e with
  | polled =>
    obtain rfl := Option.some.inj hends
    exact kept_polled h
  | attempt now outcome =>
    obtain rfl := Option.some.inj hends
    exact kept_attempt h outcome
  | announce reason time =>
    unfold State.handle at hends
    simp only at hends
    split at hends
    · rename_i hl
      obtain rfl := Option.some.inj hends
      exact kept_announce h hl reason time
    · cases hends
  | setUp =>
    unfold State.handle at hends
    simp only at hends
    split at hends
    · split at hends
      · obtain rfl := Option.some.inj hends
        exact h.record ⟨h.agree.flag,h.agree.marker⟩ h.error h.armed (fun hn => by cases hn)
          ⟨rfl,(fun hs => by cases hs),fun _ => rfl⟩
      · cases hends
    · cases hends
  | recreate =>
    unfold State.handle at hends
    simp only at hends
    split at hends
    · cases hends
    · rename_i hl
      obtain rfl := Option.some.inj hends
      exact kept_recreate h (by simpa using hl)

theorem kept_of_reachable (h : (connections fp).Reachable s) : Kept fp s := by
  refine System.Reach.invariant (I := Kept fp) ?_ (fun hk _ hs => kept_step hk hs) h
  rintro ⟨c,marker,loaded,history⟩ ⟨hmarker,hc,hloaded,hhistory⟩
  obtain rfl : c = Coordinator.create fp marker := hc
  obtain rfl : loaded = false := hloaded
  obtain rfl : history = [] := hhistory
  exact ⟨⟨rfl,rfl⟩,hmarker,fun _ => rfl,fun _ _ => rfl,always_nil.mpr trivial⟩

end Runs

/-- At every point of a run the flag, the error and the marker agree, and each event has logged what the
history before it tells. -/
theorem logged_once {fp : φ} {s : State φ} (h : (connections fp).Reachable s) : Agree fp s ∧ Always Told s.history :=
  ⟨(kept_of_reachable h).agree,(kept_of_reachable h).told⟩

/-- A host that stays down while the entry is set up, fails in another way and comes back, and is then rebooted. -/
def reboot : List Event :=
  [.attempt 0 (.refused "connection_refused"),.recreate,.attempt 1 (.refused "connection_refused"),.recreate,
    .attempt 2 (.refused "timeout"),.recreate,.attempt 3 .connected,.setUp,.announce "reboot" 4,
    .attempt 5 (.refused "connection_refused"),.polled]

def rebootLines : List (List Line) :=
  [[.recovered (some "reboot")],[.failedFollowing "reboot" "connection_refused"],[],[],[.recovered none],[],
    [.failureChanged (some "connection_refused") "timeout"],[],[.stillFailing "connection_refused"],[],
    [.failed "connection_refused"]]

theorem logged_once_reboot :
    ∃ s, s.history.map Prod.snd = rebootLines ∧ Agree "nas" s ∧ Always Told s.history := by
  obtain ⟨s,hs,hlines⟩ := System.exists_reach_of_run (connections "nas") (fun _ _ => True)
    (s := { coordinator := Coordinator.create "nas" none }) ⟨rfl,rfl,rfl,rfl⟩ reboot
    (fun s => s.history.map Prod.snd = rebootLines) (by decide)
  exact ⟨s,hlines,logged_once hs⟩

end TruenasCE.Connection
