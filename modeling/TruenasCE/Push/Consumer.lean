import Mathlib.Data.Int.Notation
import Mathlib.Data.List.Infix
import TruenasCE.Library.Transition

/-! # The drain task of a subscription

`SubscriptionPushConsumer._run` takes items off its queue, hands debounced batches to the flush
callback and ends when the subscription has ended, when the breaker trips or when a flush fails.
The queue grows and the breaker is changed by others at every await.
-/
namespace TruenasCE.Push
open Library

/-- Durations and times are in microseconds. -/
structure CircuitBreakerConfig where
  messageThreshold : ℤ := 20
  consecutiveBreachesToTrip : ℤ := 3
  cooldown : ℤ := 300000000
  deriving DecidableEq, Repr

structure CircuitBreaker where
  config : CircuitBreakerConfig := {}
  consecutiveBreaches : ℕ := 0
  tripped : Bool := false
  openedAt : Option ℤ := none
  deriving DecidableEq, Repr

def CircuitBreaker.recordBatch (b : CircuitBreaker) (now : ℤ) (messageCount : ℕ) : CircuitBreaker × Bool :=
  if b.tripped then (b,false)
  else
    let breaches := if b.config.messageThreshold < messageCount then b.consecutiveBreaches + 1 else 0
    if breaches < b.config.consecutiveBreachesToTrip then ({ b with consecutiveBreaches := breaches },false)
    else ({ b with consecutiveBreaches := breaches, tripped := true, openedAt := some now },true)

def CircuitBreaker.shouldAttemptReset (b : CircuitBreaker) (now : ℤ) : Bool :=
  match b.tripped,b.openedAt with
  | true,some openedAt => decide (b.config.cooldown ≤ now - openedAt)
  | _,_ => false

def CircuitBreaker.reset (b : CircuitBreaker) : CircuitBreaker :=
  { b with consecutiveBreaches := 0, tripped := false, openedAt := none }

/-- What the queue holds: a dict or anything else, such as the end of the connection. -/
inductive Item (δ : Type*)
  | dict (event : δ)
  | other
  deriving DecidableEq, Repr

/-- Why the consumer falls back to polling. -/
inductive Fallback (δ : Type*)
  | subscriptionEnded
  | breakerTripped (batch : List δ)
  | flushFailed (batch : List δ)
  deriving DecidableEq, Repr

/-- The awaits of `_run` and its ends. -/
inductive Phase (δ : Type*)
  | waiting
  | coalescing (batch : List δ)
  | flushing (batch : List δ) (subscriptionEnded : Bool)
  | notifying (why : Fallback δ)
  | returned (why : Fallback δ)
  /-- The trip callback raised. -/
  | failed (why : Fallback δ)
  | cancelled
  deriving DecidableEq, Repr

structure Consumer (δ : Type*) where
  queue : List (Item δ)
  breaker : Option CircuitBreaker
  /-- Whether a trip callback is given. -/
  onTrip : Bool
  phase : Phase δ
  /-- Everything the queue ever held. -/
  received : List (Item δ)
  flushed : List (List δ)
  /-- How often the trip callback was called. -/
  trips : ℕ
  deriving DecidableEq, Repr

inductive FlushOutcome
  | ok
  | raised
  | cancelled
  deriving DecidableEq, Repr

inductive Event (δ : Type*)
  | put (item : Item δ)
  | breakerSet (breaker : CircuitBreaker)
  | get (now : ℤ)
  | deadline (now : ℤ)
  | flushEnds (outcome : FlushOutcome)
  | tripEnds (raised : Bool)
  | cancel
  deriving DecidableEq, Repr

namespace Consumer
variable {δ : Type*} (c : Consumer δ)

def notifyTrip (why : Fallback δ) : Consumer δ :=
  if c.onTrip then { c with trips := c.trips + 1, phase := .notifying why } else { c with phase := .returned why }

def drainBatch (now : ℤ) (batch : List δ) (subscriptionEnded : Bool) : Consumer δ :=
  match c.breaker with
  | none => { c with flushed := c.flushed ++ [batch], phase := .flushing batch subscriptionEnded }
  | some b =>
    if (b.recordBatch now batch.length).2 then
      { c with breaker := some (b.recordBatch now batch.length).1 }.notifyTrip (.breakerTripped batch)
    else
      { c with
        breaker := some (b.recordBatch now batch.length).1
        flushed := c.flushed ++ [batch]
        phase := .flushing batch subscriptionEnded }

/-- An item comes off the queue in `_collect_batch`. -/
def collect (now : ℤ) : Option (Consumer δ) :=
  match c.phase, c.queue with
  | .waiting, .dict event :: rest => some { c with queue := rest, phase := .coalescing [event] }
  | .waiting, .other :: rest => some ({ c with queue := rest }.notifyTrip .subscriptionEnded)
  | .coalescing batch, .dict event :: rest => some { c with queue := rest, phase := .coalescing (batch ++ [event]) }
  | .coalescing batch, .other :: rest => some ({ c with queue := rest }.drainBatch now batch true)
  | _, _ => none

def flushEnds (batch : List δ) (subscriptionEnded : Bool) : FlushOutcome → Consumer δ
  | .ok => if subscriptionEnded then c.notifyTrip .subscriptionEnded else { c with phase := .waiting }
  | .raised => c.notifyTrip (.flushFailed batch)
  | .cancelled => { c with phase := .cancelled }

def tripEnds (why : Fallback δ) (raised : Bool) : Consumer δ :=
  { c with phase := if raised then .failed why else .returned why }

def step : Event δ → Option (Consumer δ)
  | .put item => some { c with queue := c.queue ++ [item], received := c.received ++ [item] }
  | .breakerSet breaker => some { c with breaker := c.breaker.map (fun _ => breaker) }
  | .get now => c.collect now
  | .deadline now =>
    match c.phase with
    | .coalescing batch => some (c.drainBatch now batch false)
    | _ => none
  | .flushEnds outcome =>
    match c.phase with
    | .flushing batch subscriptionEnded => some (c.flushEnds batch subscriptionEnded outcome)
    | _ => none
  | .tripEnds raised =>
    match c.phase with
    | .notifying why => some (c.tripEnds why raised)
    | _ => none
  | .cancel =>
    match c.phase with
    | .returned _ | .failed _ | .cancelled => none
    | _ => some { c with phase := .cancelled }

/-- Each step by its event: the phase it is made in, and what it leaves. -/
inductive Steps (c : Consumer δ) : Event δ → Consumer δ → Prop
  | put (item : Item δ) : c.Steps (.put item) { c with queue := c.queue ++ [item], received := c.received ++ [item] }
  | breakerSet (breaker : CircuitBreaker) :
    c.Steps (.breakerSet breaker) { c with breaker := c.breaker.map (fun _ => breaker) }
  | begins {event : δ} {rest : List (Item δ)} (hp : c.phase = .waiting) (hq : c.queue = .dict event :: rest) (now : ℤ) :
    c.Steps (.get now) { c with queue := rest, phase := .coalescing [event] }
  | endsWaiting {rest : List (Item δ)} (hp : c.phase = .waiting) (hq : c.queue = .other :: rest) (now : ℤ) :
    c.Steps (.get now) ({ c with queue := rest }.notifyTrip .subscriptionEnded)
  | coalesces {batch : List δ} {event : δ} {rest : List (Item δ)} (hp : c.phase = .coalescing batch)
    (hq : c.queue = .dict event :: rest) (now : ℤ) :
    c.Steps (.get now) { c with queue := rest, phase := .coalescing (batch ++ [event]) }
  | endsCoalescing {batch : List δ} {rest : List (Item δ)} (hp : c.phase = .coalescing batch)
    (hq : c.queue = .other :: rest) (now : ℤ) : c.Steps (.get now) ({ c with queue := rest }.drainBatch now batch true)
  | deadline {batch : List δ} (hp : c.phase = .coalescing batch) (now : ℤ) :
    c.Steps (.deadline now) (c.drainBatch now batch false)
  | flushEnds {batch : List δ} {ended : Bool} (hp : c.phase = .flushing batch ended) (outcome : FlushOutcome) :
    c.Steps (.flushEnds outcome) (c.flushEnds batch ended outcome)
  | tripEnds {why : Fallback δ} (hp : c.phase = .notifying why) (raised : Bool) :
    c.Steps (.tripEnds raised) (c.tripEnds why raised)
  | cancel : c.Steps .cancel { c with phase := .cancelled }

theorem steps_of_step {c c' : Consumer δ} {e : Event δ} (h : c.step e = some c') : c.Steps e c' := by
  cases e with
  | put item =>
    cases h
    exact .put item
  | breakerSet breaker =>
    cases h
    exact .breakerSet breaker
  | get now =>
    rw [step,collect.eq_def] at h
    split at h
    · cases h
      exact .begins ‹_› ‹_› now
    · cases h
      exact .endsWaiting ‹_› ‹_› now
    · cases h
      exact .coalesces ‹_› ‹_› now
    · cases h
      exact .endsCoalescing ‹_› ‹_› now
    · cases h
  | deadline now =>
    rw [step] at h
    split at h
    · cases h
      exact .deadline ‹_› now
    · cases h
  | flushEnds outcome =>
    rw [step] at h
    split at h
    · cases h
      exact .flushEnds ‹_› outcome
    · cases h
  | tripEnds raised =>
    rw [step] at h
    split at h
    · cases h
      exact .tripEnds ‹_› raised
    · cases h
  | cancel =>
    rw [step] at h
    split at h
    · cases h
    · cases h
    · cases h
    · cases h
      exact .cancel

end Consumer

def consumer (δ : Type*) : System (Consumer δ) (Event δ) where
  init c := c.queue = c.received ∧ c.phase = .waiting ∧ c.flushed = [] ∧ c.trips = 0
  step := Consumer.step

def leadingDicts {δ : Type*} : List (Item δ) → List δ
  | .dict event :: rest => event :: leadingDicts rest
  | .other :: _ => []
  | [] => []

def Phase.fallsBack {δ : Type*} : Phase δ → Option (Fallback δ)
  | .notifying why | .returned why | .failed why => some why
  | _ => none

section Dicts
variable {δ : Type*} {events : List δ} {items : List (Item δ)}

@[simp] theorem leadingDicts_append : leadingDicts (events.map Item.dict ++ items) = events ++ leadingDicts items := by
  induction events with
  | nil => rfl
  | cons event rest ih => simp only [List.map_cons,List.cons_append,leadingDicts,ih]

end Dicts

/-- The pending items and the end behind them have left the queue and are not flushed. -/
def Consumer.Accounts {δ : Type*} (c : Consumer δ) (pending : List δ) (seen : List (Item δ)) : Prop :=
  c.received = (c.flushed.flatten ++ pending).map Item.dict ++ (seen ++ c.queue)

def FellBack {δ : Type*} (flushed : List (List δ)) (pending : List δ) (seen : List (Item δ)) : Fallback δ → Prop
  | .subscriptionEnded => pending = [] ∧ seen = [.other]
  | .breakerTripped batch => pending = batch ∧ batch ≠ []
  | .flushFailed batch => pending = [] ∧ ∃ before, flushed = before ++ [batch]

def InPhase {δ : Type*} (flushed : List (List δ)) (pending : List δ) (seen : List (Item δ)) : Phase δ → Prop
  | .waiting => pending = [] ∧ seen = []
  | .coalescing batch => pending = batch ∧ batch ≠ [] ∧ seen = []
  | .flushing batch subscriptionEnded =>
    pending = [] ∧ (∃ before, flushed = before ++ [batch]) ∧ seen = if subscriptionEnded then [.other] else []
  | .notifying why | .returned why | .failed why => FellBack flushed pending seen why
  | .cancelled => True

def Consumer.Kept {δ : Type*} (c : Consumer δ) : Prop :=
  ∃ pending seen, c.Accounts pending seen ∧ InPhase c.flushed pending seen c.phase

section Kept
variable {δ : Type*} {c c' : Consumer δ} {pending batch : List δ} {seen : List (Item δ)}

theorem kept_notifyTrip (pending : List δ) (seen : List (Item δ)) {why : Fallback δ}
    (ha : c.Accounts pending seen) (hw : FellBack c.flushed pending seen why) :
    (c.notifyTrip why).Kept := by
  unfold Consumer.notifyTrip
  split
  · exact ⟨pending,seen,ha,hw⟩
  · exact ⟨pending,seen,ha,hw⟩

theorem kept_drainBatch (seen : List (Item δ)) {now : ℤ} {ended : Bool} (ha : c.Accounts batch seen) (hb : batch ≠ [])
    (hs : seen = if ended then [.other] else []) : (c.drainBatch now batch ended).Kept := by
  have hflushed : c.received = ((c.flushed ++ [batch]).flatten ++ []).map Item.dict ++ (seen ++ c.queue) := by
    simpa [Consumer.Accounts] using ha
  unfold Consumer.drainBatch
  split
  · exact ⟨[],seen,hflushed,rfl,⟨_,rfl⟩,hs⟩
  · split
    · exact kept_notifyTrip batch seen ha ⟨rfl,hb⟩
    · exact ⟨[],seen,hflushed,rfl,⟨_,rfl⟩,hs⟩

theorem kept_flushEnds {ended : Bool} (h : c.Kept) (hp : c.phase = .flushing batch ended) (outcome : FlushOutcome) :
    (c.flushEnds batch ended outcome).Kept := by
  obtain ⟨pending,seen,ha,hin⟩ := h
  rw [hp] at hin
  obtain ⟨rfl,hlast,hs⟩ := hin
  cases outcome with
  | ok =>
    unfold Consumer.flushEnds
    cases ended with
    | true => exact kept_notifyTrip [] seen ha ⟨rfl,hs⟩
    | false => exact ⟨[],seen,ha,rfl,hs⟩
  | raised => exact kept_notifyTrip [] seen ha ⟨rfl,hlast⟩
  | cancelled => exact ⟨[],seen,ha,trivial⟩

theorem kept_step {e : Event δ} (h : c.Kept) (hs : c.step e = some c') : c'.Kept := by
  obtain ⟨pending,seen,ha,hin⟩ := id h
  cases Consumer.steps_of_step hs with
  | put item =>
    refine ⟨pending,seen,?_,hin⟩
    unfold Consumer.Accounts at ha ⊢
    simp only [ha,List.append_assoc]
  | breakerSet breaker => exact h
  | begins hp hq =>
    rw [hp] at hin
    obtain ⟨rfl,rfl⟩ := hin
    rw [Consumer.Accounts,hq] at ha
    exact ⟨[_],[],by simpa [Consumer.Accounts] using ha,rfl,by simp,rfl⟩
  | endsWaiting hp hq =>
    rw [hp] at hin
    obtain ⟨rfl,rfl⟩ := hin
    rw [Consumer.Accounts,hq] at ha
    exact kept_notifyTrip [] [.other] (by simpa [Consumer.Accounts] using ha) ⟨rfl,rfl⟩
  | coalesces hp hq =>
    rw [hp] at hin
    obtain ⟨rfl,hb,rfl⟩ := hin
    rw [Consumer.Accounts,hq] at ha
    exact ⟨_,[],by simpa [Consumer.Accounts] using ha,rfl,by simp,rfl⟩
  | endsCoalescing hp hq =>
    rw [hp] at hin
    obtain ⟨rfl,hb,rfl⟩ := hin
    rw [Consumer.Accounts,hq] at ha
    exact kept_drainBatch [.other] (by simpa [Consumer.Accounts] using ha) hb rfl
  | deadline hp =>
    rw [hp] at hin
    obtain ⟨rfl,hb,rfl⟩ := hin
    exact kept_drainBatch [] ha hb rfl
  | flushEnds hp outcome => exact kept_flushEnds h hp outcome
  | tripEnds hp raised =>
    rw [hp] at hin
    refine ⟨pending,seen,ha,?_⟩
    unfold Consumer.tripEnds
    cases raised <;> exact hin
  | cancel => exact ⟨pending,seen,ha,trivial⟩

theorem kept_of_reachable (h : (consumer δ).Reachable c) : c.Kept := by
  refine System.Reach.invariant (I := Consumer.Kept) ?_ (fun hk _ hs => kept_step hk hs) h
  rintro c ⟨hqueue,hphase,hflushed,_⟩
  refine ⟨[],[],by simp [Consumer.Accounts,hqueue,hflushed],?_⟩
  rw [hphase]
  exact ⟨rfl,rfl⟩

end Kept

/-- The trip callback was called once if the consumer fell back, and not before. -/
def Consumer.TripsOnce {δ : Type*} (c : Consumer δ) : Prop :=
  c.phase = .cancelled ∨ c.trips = if c.phase.fallsBack.isSome && c.onTrip then 1 else 0

section Trips
variable {δ : Type*} {c c' : Consumer δ} {batch : List δ}

theorem tripsOnce_notifyTrip (h : c.trips = 0) (why : Fallback δ) : (c.notifyTrip why).TripsOnce := by
  unfold Consumer.notifyTrip
  split
  · rename_i hon
    exact Or.inr (by simp [Phase.fallsBack,hon,h])
  · rename_i hon
    exact Or.inr (by simp [Phase.fallsBack,hon,h])

theorem tripsOnce_drainBatch (h : c.trips = 0) (now : ℤ) (batch : List δ) (ended : Bool) :
    (c.drainBatch now batch ended).TripsOnce := by
  unfold Consumer.drainBatch
  split
  · exact Or.inr h
  · split
    · refine tripsOnce_notifyTrip ?_ _
      exact h
    · exact Or.inr h

theorem trips_eq_zero (h : c.TripsOnce) (hc : c.phase ≠ .cancelled) (hf : c.phase.fallsBack = none) : c.trips = 0 := by
  have := h.resolve_left hc
  simpa [hf] using this

theorem tripsOnce_flushEnds (h : c.trips = 0) (batch : List δ) (ended : Bool) (outcome : FlushOutcome) :
    (c.flushEnds batch ended outcome).TripsOnce := by
  cases outcome with
  | ok =>
    cases ended with
    | true => exact tripsOnce_notifyTrip h _
    | false => exact Or.inr h
  | raised => exact tripsOnce_notifyTrip h _
  | cancelled => exact Or.inl rfl

theorem tripsOnce_step {e : Event δ} (h : c.TripsOnce) (hs : c.step e = some c') : c'.TripsOnce := by
  have before : ∀ {p}, c.phase = p → p ≠ .cancelled → p.fallsBack = none → c.trips = 0 := fun hp hc hf =>
    trips_eq_zero h (hp ▸ hc) (hp ▸ hf)
  cases Consumer.steps_of_step hs with
  | put item => exact h
  | breakerSet breaker => exact h
  | begins hp => exact Or.inr (before hp (by simp) rfl)
  | endsWaiting hp =>
    refine tripsOnce_notifyTrip ?_ _
    exact before hp (by simp) rfl
  | coalesces hp => exact Or.inr (before hp (by simp) rfl)
  | endsCoalescing hp =>
    refine tripsOnce_drainBatch ?_ _ _ _
    exact before hp (by simp) rfl
  | deadline hp => exact tripsOnce_drainBatch (before hp (by simp) rfl) _ _ _
  | flushEnds hp outcome => exact tripsOnce_flushEnds (before hp (by simp) rfl) _ _ outcome
  | tripEnds hp raised =>
    have htrips := h.resolve_left (by simp [hp])
    rw [hp] at htrips
    cases raised <;> exact Or.inr htrips
  | cancel => exact Or.inl rfl

theorem tripsOnce_of_reachable (h : (consumer δ).Reachable c) : c.TripsOnce := by
  refine System.Reach.invariant (I := Consumer.TripsOnce) ?_ (fun hk _ hs => tripsOnce_step hk hs) h
  rintro c ⟨_,hphase,_,htrips⟩
  exact Or.inr (by simp [hphase,htrips,Phase.fallsBack])

/-- A consumer that has fallen back or was cancelled calls neither callback again. -/
def Consumer.Over (c : Consumer δ) : Prop := c.phase = .cancelled ∨ c.phase.fallsBack.isSome = true

theorem over_step {e : Event δ} (h : c.Over) (hs : c.step e = some c') :
    c'.Over ∧ c'.flushed = c.flushed ∧ c'.trips = c.trips := by
  have hphase : ∀ {p}, c.phase = p → p = .cancelled ∨ p.fallsBack.isSome = true := fun hp => hp ▸ h
  cases Consumer.steps_of_step hs with
  | put item => exact ⟨h,rfl,rfl⟩
  | breakerSet breaker => exact ⟨h,rfl,rfl⟩
  | begins hp | endsWaiting hp | coalesces hp | endsCoalescing hp | deadline hp | flushEnds hp =>
    simpa [Phase.fallsBack] using hphase hp
  | tripEnds hp raised =>
    refine ⟨Or.inr ?_,rfl,rfl⟩
    cases raised <;> rfl
  | cancel => exact ⟨Or.inl rfl,rfl,rfl⟩

theorem over_run {es : List (Event δ)} (h : c.Over) (hr : (consumer δ).run (fun _ _ => True) c es = some c') :
    c'.flushed = c.flushed ∧ c'.trips = c.trips := by
  induction es generalizing c with
  | nil =>
    cases hr
    exact ⟨rfl,rfl⟩
  | cons e rest ih =>
    simp only [System.run,if_true] at hr
    obtain ⟨d,hd,hrest⟩ := Option.bind_eq_some_iff.mp hr
    obtain ⟨hover,hflushed,htrips⟩ := over_step h hd
    obtain ⟨hflushed',htrips'⟩ := ih hover hrest
    exact ⟨hflushed'.trans hflushed,htrips'.trans htrips⟩

end Trips

/-- The flushed batches are a beginning of the dicts before the first other item. They are all of
them when the subscription ended, what came before the batch that tripped the breaker, and end
with the batch whose flush failed; then the trip callback was called once and nothing is flushed
or called again. -/
structure BatchLaw {δ : Type*} (c : Consumer δ) : Prop where
  inOrder : c.flushed.flatten <+: leadingDicts c.received
  subscriptionEnded : c.phase.fallsBack = some .subscriptionEnded →
    Item.other ∈ c.received ∧ c.flushed.flatten = leadingDicts c.received
  breakerTripped : ∀ batch, c.phase.fallsBack = some (.breakerTripped batch) →
    batch ≠ [] ∧ c.flushed.flatten ++ batch <+: leadingDicts c.received
  flushFailed : ∀ batch, c.phase.fallsBack = some (.flushFailed batch) → ∃ before, c.flushed = before ++ [batch]
  trips : c.phase.fallsBack.isSome = true → c.onTrip = true → c.trips = 1
  after : c.phase.fallsBack.isSome = true → ∀ es d, (consumer δ).run (fun _ _ => True) c es = some d →
    d.flushed = c.flushed ∧ d.trips = c.trips

theorem fellBack_of_inPhase {δ : Type*} {flushed : List (List δ)} {pending : List δ} {seen : List (Item δ)}
    {p : Phase δ} {why : Fallback δ} (h : InPhase flushed pending seen p) (hp : p.fallsBack = some why) :
    FellBack flushed pending seen why := by
  cases p with
  | notifying w | returned w | failed w =>
    obtain rfl : w = why := Option.some.inj hp
    exact h
  | waiting | coalescing | flushing | cancelled => cases hp

theorem batchLaw_of_reachable {δ : Type*} {c : Consumer δ} (h : (consumer δ).Reachable c) : BatchLaw c := by
  obtain ⟨pending,seen,ha,hp⟩ := kept_of_reachable h
  have hdicts : leadingDicts c.received = c.flushed.flatten ++ (pending ++ leadingDicts (seen ++ c.queue)) := by
    rw [ha,leadingDicts_append,List.append_assoc]
  refine ⟨hdicts ▸ List.prefix_append _ _,fun hw => ?_,fun batch hw => ?_,fun batch hw => ?_,fun hw hon => ?_,
    fun hw es d hd => over_run (Or.inr hw) hd⟩
  · obtain ⟨rfl,rfl⟩ := fellBack_of_inPhase hp hw
    have hother : Item.other ∈ c.received := by
      rw [ha]
      simp
    exact ⟨hother,by rw [hdicts]; simp [leadingDicts]⟩
  · obtain ⟨rfl,hb⟩ := fellBack_of_inPhase hp hw
    refine ⟨hb,?_⟩
    rw [hdicts,← List.append_assoc]
    exact List.prefix_append _ _
  · exact (fellBack_of_inPhase hp hw).2
  · have hc : c.phase ≠ .cancelled := fun hc => by simp [hc,Phase.fallsBack] at hw
    have htrips := (tripsOnce_of_reachable h).resolve_left hc
    simpa [hw,hon] using htrips

/-- Two batches, the second cut off by the end of the subscription. -/
theorem batchLaw_of_ended : ∃ c : Consumer ℕ, c.phase = .returned .subscriptionEnded ∧ c.flushed = [[1,2],[3]] ∧
    BatchLaw c := by
  obtain ⟨c,hc,hp⟩ := System.exists_reach_of_run (consumer ℕ) (fun _ _ => True)
    (s := ⟨[.dict 1,.dict 2],none,true,.waiting,[.dict 1,.dict 2],[],0⟩) ⟨rfl,rfl,rfl,rfl⟩
    [.get 0,.get 0,.put (.dict 3),.deadline 1,.flushEnds .ok,.get 2,.put .other,.put (.dict 4),.get 3,.flushEnds .ok,
      .tripEnds false]
    (fun c => c.phase = .returned .subscriptionEnded ∧ c.flushed = [[1,2],[3]]) (by decide)
  exact ⟨c,hp.1,hp.2,batchLaw_of_reachable hc⟩

end TruenasCE.Push
