import TruenasCE.Library.TaskTable
import TruenasCE.Library.Transition

/-! # The push subscription of one source

`_ensure_push_subscription`, `_stop_push_subscription` and the drain task of
`SubscriptionPushConsumer` share one `_PushSourceState`. Every await of theirs may
suspend; the drain task runs the stop itself when its breaker trips, its callback
fails or its queue ends.
-/
namespace TruenasCE.Push
open Library

abbrev SubId := ℕ
abbrev Topic := String

/-- `_PushSourceState`; a consumer is named by the number of its drain task. -/
structure PushState where
  subId : Option SubId := none
  event : Option Topic := none
  consumer : Option ℕ := none
  deriving DecidableEq, Repr

inductive Next
  | subscribe (event : Topic)
  | finish
  deriving DecidableEq, Repr

/-- Suspension points: of a refresh in `is_subscribed`, of a stop in the await of the
cancelled task and in `unsubscribe_events`, of a refresh in `subscribe_events`, and of a
drain task in its loop. -/
inductive Thread
  | checking (event : Topic) (sub : SubId)
  | stopping (consumer : ℕ) (next : Next)
  | unsubscribing (sub : SubId) (next : Next)
  | subscribing (event : Topic)
  | draining (sub : SubId) (cancelled : Bool)
  deriving DecidableEq, Repr

structure Source where
  connected : Bool
  live : List SubId
  nextSub : SubId
  push : PushState
  tripped : Bool
  /-- Whether `_task` of the consumer is set. -/
  attached : ℕ → Bool
  failed : ℕ → Bool
  tasks : TaskTable Thread

def Source.initial : Source where
  connected := true
  live := []
  nextSub := 0
  push := {}
  tripped := false
  attached _ := false
  failed _ := false
  tasks := TaskTable.empty

namespace Source
variable (s : Source)

def setTask (n : ℕ) (o : Option Thread) : Source := { s with tasks := s.tasks.set n o }

/-- Suspend the running task `n` where a segment ends. -/
def place (n : ℕ) (p : Source × Option Thread) : Source := p.1.setTask n p.2

def placeNew (p : Source × Option Thread) : Source :=
  match p.2 with
  | some thread => { p.1 with tasks := p.1.tasks.spawn thread }
  | none => p.1

/-- `_ensure_push_subscription` from its second `if state.sub_id` on; `elapsed` is
`should_attempt_reset`. -/
def trySubscribe (event : Topic) (elapsed : Bool) : Source × Option Thread :=
  if s.push.subId.isSome then (s,none)
  else if s.tripped && !elapsed then (s,none)
  else ({ s with tripped := false },some (.subscribing event))

def clear : Source := { s with push := {} }

def goOn (elapsed : Bool) : Next → Source × Option Thread
  | .subscribe event => s.trySubscribe event elapsed
  | .finish => (s,none)

def unsubscribe (next : Next) (elapsed : Bool) : Source × Option Thread :=
  match s.push.subId with
  | none => s.clear.goOn elapsed next
  | some sub => if s.connected then (s,some (.unsubscribing sub next)) else s.clear.goOn elapsed next

def detach (consumer : ℕ) : Source := { s with attached := Function.update s.attached consumer false }

def cancel (consumer : ℕ) : Source :=
  match s.tasks.get consumer with
  | some (.draining sub _) => s.setTask consumer (some (.draining sub true))
  | _ => s

/-- `_stop_push_subscription` called in task `n`. A task that ended with an exception
raises it when it is awaited. -/
def stop (n : ℕ) (next : Next) (elapsed : Bool) : Source × Option Thread :=
  match s.push.consumer with
  | none => s.unsubscribe next elapsed
  | some consumer =>
    if !s.attached consumer then s.unsubscribe next elapsed
    else if consumer = n then (s.detach consumer).unsubscribe next elapsed
    else if ((s.detach consumer).tasks.get consumer).isSome then
      ((s.detach consumer).cancel consumer,some (.stopping consumer next))
    else if s.failed consumer then (s.detach consumer,none)
    else (s.detach consumer).unsubscribe next elapsed

def checkTopic (n : ℕ) (event : Topic) (elapsed : Bool) : Source × Option Thread :=
  if s.push.subId.isSome && decide (s.push.event ≠ some event) then s.stop n (.subscribe event) elapsed
  else s.trySubscribe event elapsed

def ensure (event : Topic) (elapsed : Bool) : Source × Option Thread :=
  if !s.connected then (s,none)
  else
    match s.push.subId with
    | some sub => (s,some (.checking event sub))
    | none => s.trySubscribe event elapsed

def store (n : ℕ) (event : Topic) : Source :=
  { s with
    live := s.nextSub :: s.live
    nextSub := s.nextSub + 1
    push := ⟨some s.nextSub,some event,some s.tasks.next⟩
    attached := Function.update s.attached s.tasks.next true
    tasks := (s.tasks.spawn (.draining s.nextSub false)).set n none }

/-- `subscribe_events` has returned nothing; `made` tells whether the server subscribed all the same, as when the call
timed out after it was sent. -/
def abandon (made : Bool) : Source :=
  if made && s.connected then { s with live := s.nextSub :: s.live, nextSub := s.nextSub + 1 } else s

end Source

theorem Source.stop_cases {P : Source × Option Thread → Prop} (s : Source) (n : ℕ) (next : Next) (elapsed : Bool)
    (hgoes : P (s.unsubscribe next elapsed)) (hdetached : ∀ c, P ((s.detach c).unsubscribe next elapsed))
    (hwaits : ∀ c, c ≠ n → P ((s.detach c).cancel c,some (.stopping c next)))
    (hraises : ∀ c, s.failed c = true → P (s.detach c,none)) : P (s.stop n next elapsed) := by
  unfold Source.stop
  split
  · exact hgoes
  split
  · exact hgoes
  split
  · exact hdetached _
  rename_i hne
  split
  · exact hwaits _ hne
  split
  · exact hraises _ ‹_›
  · exact hdetached _

inductive Action
  | ensure (event : Topic) (elapsed : Bool)
  | unload (elapsed : Bool)
  | checked (n : ℕ) (answer : Bool) (elapsed : Bool)
  | stopped (n : ℕ) (elapsed : Bool)
  | unsubscribed (n : ℕ) (ok : Bool) (elapsed : Bool)
  | subscribed (n : ℕ)
  | subscribeFailed (n : ℕ) (made : Bool)
  | trip (n : ℕ) (breach : Bool) (elapsed : Bool)
  | cancelled (n : ℕ)
  | died (n : ℕ) (failed : Bool)
  | connectionLost
  | connectionRestored
  deriving DecidableEq, Repr

def Source.step (s : Source) : Action → Option Source
  | .ensure event elapsed => some (Source.placeNew (s.ensure event elapsed))
  | .unload elapsed => some (Source.placeNew (s.stop s.tasks.next .finish elapsed))
  | .checked n answer elapsed =>
    match s.tasks.get n with
    | some (.checking event _) =>
      some (Source.place n (if answer then s.checkTopic n event elapsed else s.stop n (.subscribe event) elapsed))
    | _ => none
  | .stopped n elapsed =>
    match s.tasks.get n with
    | some (.stopping consumer next) =>
      if (s.tasks.get consumer).isNone then some (Source.place n (s.unsubscribe next elapsed)) else none
    | _ => none
  | .unsubscribed n ok elapsed =>
    match s.tasks.get n with
    | some (.unsubscribing sub next) =>
      some (Source.place n
        (({ s with live := if ok then s.live.filter (fun k => k ≠ sub) else s.live }).clear.goOn elapsed next))
    | _ => none
  | .subscribed n =>
    match s.tasks.get n with
    | some (.subscribing event) => if s.connected then some (s.store n event) else none
    | _ => none
  | .subscribeFailed n made =>
    match s.tasks.get n with
    | some (.subscribing _) => some ((s.abandon made).setTask n none)
    | _ => none
  | .trip n breach elapsed =>
    match s.tasks.get n with
    | some (.draining _ false) =>
      some (Source.place n ({ s with tripped := s.tripped || breach }.stop n .finish elapsed))
    | _ => none
  | .cancelled n =>
    match s.tasks.get n with
    | some (.draining _ true) => some (s.setTask n none)
    | _ => none
  | .died n failed =>
    match s.tasks.get n with
    | some (.draining _ false) =>
      some ({ s with failed := Function.update s.failed n failed }.setTask n none)
    | _ => none
  | .connectionLost => some { s with connected := false, live := [] }
  | .connectionRestored => some { s with connected := true }

def system : System Source Action where
  init s := s = Source.initial
  step := Source.step

/-- Each step by its action: the thread it goes on with, and the state it leaves. -/
inductive Source.Steps (s : Source) : Action → Source → Prop
  | ensure (event : Topic) (elapsed : Bool) : s.Steps (.ensure event elapsed) (Source.placeNew (s.ensure event elapsed))
  | unload (elapsed : Bool) : s.Steps (.unload elapsed) (Source.placeNew (s.stop s.tasks.next .finish elapsed))
  | checked {n : ℕ} {event : Topic} {sub : SubId} (hn : s.tasks.get n = some (.checking event sub))
    (answer elapsed : Bool) : s.Steps (.checked n answer elapsed)
      (Source.place n (if answer then s.checkTopic n event elapsed else s.stop n (.subscribe event) elapsed))
  | stopped {n consumer : ℕ} {next : Next} (hn : s.tasks.get n = some (.stopping consumer next))
    (hended : (s.tasks.get consumer).isNone = true) (elapsed : Bool) :
    s.Steps (.stopped n elapsed) (Source.place n (s.unsubscribe next elapsed))
  | unsubscribed {n : ℕ} {sub : SubId} {next : Next} (hn : s.tasks.get n = some (.unsubscribing sub next))
    (ok elapsed : Bool) : s.Steps (.unsubscribed n ok elapsed) (Source.place n
      (({ s with live := if ok then s.live.filter (fun k => k ≠ sub) else s.live }).clear.goOn elapsed next))
  | subscribed {n : ℕ} {event : Topic} (hn : s.tasks.get n = some (.subscribing event)) (hc : s.connected = true) :
    s.Steps (.subscribed n) (s.store n event)
  | subscribeFailed {n : ℕ} {event : Topic} (hn : s.tasks.get n = some (.subscribing event)) (made : Bool) :
    s.Steps (.subscribeFailed n made) ((s.abandon made).setTask n none)
  | trip {n : ℕ} {sub : SubId} (hn : s.tasks.get n = some (.draining sub false)) (breach elapsed : Bool) :
    s.Steps (.trip n breach elapsed)
      (Source.place n ({ s with tripped := s.tripped || breach }.stop n .finish elapsed))
  | cancelled {n : ℕ} {sub : SubId} (hn : s.tasks.get n = some (.draining sub true)) :
    s.Steps (.cancelled n) (s.setTask n none)
  | died {n : ℕ} {sub : SubId} (hn : s.tasks.get n = some (.draining sub false)) (failed : Bool) :
    s.Steps (.died n failed) ({ s with failed := Function.update s.failed n failed }.setTask n none)
  | connectionLost : s.Steps .connectionLost { s with connected := false, live := [] }
  | connectionRestored : s.Steps .connectionRestored { s with connected := true }

theorem Source.steps_of_step {s t : Source} {a : Action} (h : s.step a = some t) : s.Steps a t := by
  cases a with
  | ensure event elapsed =>
    cases h
    exact .ensure event elapsed
  | unload elapsed =>
    cases h
    exact .unload elapsed
  | connectionLost =>
    cases h
    exact .connectionLost
  | connectionRestored =>
    cases h
    exact .connectionRestored
  | checked n answer elapsed =>
    rw [Source.step] at h
    split at h
    · cases h
      exact .checked ‹_› answer elapsed
    · cases h
  | stopped n elapsed =>
    rw [Source.step] at h
    split at h
    · split at h
      · cases h
        exact .stopped ‹_› ‹_› elapsed
      · cases h
    · cases h
  | unsubscribed n ok elapsed =>
    rw [Source.step] at h
    split at h
    · cases h
      exact .unsubscribed ‹_› ok elapsed
    · cases h
  | subscribed n =>
    rw [Source.step] at h
    split at h
    · split at h
      · cases h
        exact .subscribed ‹_› ‹_›
      · cases h
    · cases h
  | subscribeFailed n made =>
    rw [Source.step] at h
    split at h
    · cases h
      exact .subscribeFailed ‹_› made
    · cases h
  | trip n breach elapsed =>
    rw [Source.step] at h
    split at h
    · cases h
      exact .trip ‹_› breach elapsed
    · cases h
  | cancelled n =>
    rw [Source.step] at h
    split at h
    · cases h
      exact .cancelled ‹_›
    · cases h
  | died n failed =>
    rw [Source.step] at h
    split at h
    · cases h
      exact .died ‹_› failed
    · cases h

end TruenasCE.Push
