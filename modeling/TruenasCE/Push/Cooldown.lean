import TruenasCE.Push.Breaker
import TruenasCE.Push.Exclusivity

/-! # The cooldown of a push source

The breaker of a source is shared by its drain tasks, which trip it, and its refreshes, which close it and
subscribe again once the cooldown is over. Each event carries what the clock says at it.
-/
namespace TruenasCE.Push
open Library

/-- The event at a time at which `should_attempt_reset` answers so. -/
def Action.withElapsed (elapsed : Bool) : Action → Action
  | .ensure event _ => .ensure event elapsed
  | .unload _ => .unload elapsed
  | .checked n answer _ => .checked n answer elapsed
  | .stopped n _ => .stopped n elapsed
  | .unsubscribed n ok _ => .unsubscribed n ok elapsed
  | .trip n breach _ => .trip n breach elapsed
  | action => action

/-- What happens besides the batches. A drain task raises only what a stop in it raises, and a stop raises only what
an earlier drain task raised. -/
def Action.Besides : Action → Prop
  | .trip _ breach _ => breach = false
  | .died _ failed => failed = false
  | _ => True

instance : (action : Action) → Decidable action.Besides
  | .trip _ breach _ => inferInstanceAs (Decidable (breach = false))
  | .died _ failed => inferInstanceAs (Decidable (failed = false))
  | .ensure _ _ | .unload _ | .checked _ _ _ | .stopped _ _ | .unsubscribed _ _ _ | .subscribed _
  | .subscribeFailed _ _ | .cancelled _ | .connectionLost | .connectionRestored => inferInstanceAs (Decidable True)

/-- `_ensure_alerts_subscription` asks for no topic behind its check; the other sources do. -/
def Source.stepOf (topical : Bool) (s : Source) (action : Action) : Option Source :=
  match topical,action with
  | false,.checked n true elapsed =>
    match s.tasks.get n with
    | some (.checking event _) => some (Source.place n (s.trySubscribe event elapsed))
    | _ => none
  | _,action => s.step action

structure Timed where
  source : Source
  breaker : CircuitBreaker

/-- A batch of a drain task, or anything else that happens to the source. -/
inductive Happening
  | batch (n messageCount : ℕ)
  | besides (action : Action)

structure Moment where
  now : ℤ
  what : Happening

namespace Timed
variable (topical : Bool) (s : Timed)

/-- `record_batch` in the drain task `n`, and the stop if it trips the breaker. -/
def recordBatch (now : ℤ) (n messageCount : ℕ) : Option Timed :=
  match s.source.tasks.get n with
  | some (.draining _ false) =>
    match s.breaker.recordBatch now messageCount with
    | (breaker,false) => some ⟨s.source,breaker⟩
    | (breaker,true) => (s.source.step (.trip n true (breaker.shouldAttemptReset now))).map (fun source => ⟨source,breaker⟩)
  | _ => none

def besides (now : ℤ) (action : Action) : Option Timed :=
  (s.source.stepOf topical (action.withElapsed (s.breaker.shouldAttemptReset now))).map (fun source =>
    ⟨source,if s.breaker.tripped && !source.tripped then s.breaker.reset else s.breaker⟩)

def step (e : Moment) : Option Timed :=
  match e.what with
  | .batch n messageCount => s.recordBatch e.now n messageCount
  | .besides action => if action.Besides then s.besides topical e.now action else none

end Timed

def cooldownSystem (topical : Bool) (config : CircuitBreakerConfig) : System Timed Moment where
  init s := s = ⟨Source.initial,{ config := config }⟩
  step s e := s.step topical e

/-- A step begins a subscribe call. -/
def Subscribes (s t : Source) : Prop :=
  ∃ n event, t.tasks.get n = some (.subscribing event) ∧ s.tasks.get n ≠ some (.subscribing event)

/-- A segment either leaves the breaker alone, or subscribes with the breaker closed or elapsed. -/
structure Decides (s : Source) (elapsed : Bool) (p : Source × Option Thread) : Prop where
  failed : p.1.failed = s.failed
  breaker : (p.1.tripped = s.tripped ∧ ∀ event, p.2 ≠ some (.subscribing event)) ∨
    (p.1.tripped = false ∧ (s.tripped = true → elapsed = true) ∧ ∃ event, p.2 = some (.subscribing event))

/-- No other task begins a subscribe call in the segment. -/
def Leaves (s t : Source) : Prop :=
  ∀ m event, t.tasks.get m = some (.subscribing event) → s.tasks.get m = some (.subscribing event)

section Segments
variable {s : Source} {n : ℕ} {event : Topic} {next : Next} {elapsed : Bool}

theorem Decides.of_eq {s' : Source} {p : Source × Option Thread} (h : Decides s' elapsed p) (hf : s'.failed = s.failed)
    (ht : s'.tripped = s.tripped) : Decides s elapsed p :=
  ⟨h.failed.trans hf,ht ▸ h.breaker⟩

theorem trySubscribe_decides (s : Source) (event : Topic) (elapsed : Bool) :
    Decides s elapsed (s.trySubscribe event elapsed) := by
  unfold Source.trySubscribe
  split
  · exact ⟨rfl,Or.inl ⟨rfl,fun _ => nofun⟩⟩
  split
  · exact ⟨rfl,Or.inl ⟨rfl,fun _ => nofun⟩⟩
  · rename_i hnot
    refine ⟨rfl,Or.inr ⟨rfl,fun ht => ?_,event,rfl⟩⟩
    simpa [ht] using hnot

theorem goOn_decides (s : Source) (next : Next) (elapsed : Bool) : Decides s elapsed (s.clear.goOn elapsed next) := by
  cases next with
  | finish => exact ⟨rfl,Or.inl ⟨rfl,fun _ => nofun⟩⟩
  | subscribe event => exact (trySubscribe_decides s.clear event elapsed).of_eq rfl rfl

theorem unsubscribe_decides (s : Source) (next : Next) (elapsed : Bool) : Decides s elapsed (s.unsubscribe next elapsed) := by
  unfold Source.unsubscribe
  split
  · exact goOn_decides s next elapsed
  split
  · exact ⟨rfl,Or.inl ⟨rfl,fun _ => nofun⟩⟩
  · exact goOn_decides s next elapsed

theorem cancel_keeps (s : Source) (consumer : ℕ) :
    (s.cancel consumer).tripped = s.tripped ∧ (s.cancel consumer).failed = s.failed := by
  unfold Source.cancel
  split
  · exact ⟨rfl,rfl⟩
  · exact ⟨rfl,rfl⟩

theorem stop_decides (s : Source) (n : ℕ) (next : Next) (elapsed : Bool) : Decides s elapsed (s.stop n next elapsed) := by
  refine s.stop_cases n next elapsed (unsubscribe_decides s next elapsed) (fun c => ?_) (fun c _ => ?_) (fun c _ => ?_)
  · exact (unsubscribe_decides (s.detach c) next elapsed).of_eq rfl rfl
  · exact ⟨(cancel_keeps _ _).2,Or.inl ⟨(cancel_keeps _ _).1,fun _ => nofun⟩⟩
  · exact ⟨rfl,Or.inl ⟨rfl,fun _ => nofun⟩⟩

theorem checkTopic_decides (s : Source) (n : ℕ) (event : Topic) (elapsed : Bool) :
    Decides s elapsed (s.checkTopic n event elapsed) := by
  unfold Source.checkTopic
  split
  · exact stop_decides s n _ elapsed
  · exact trySubscribe_decides s event elapsed

theorem ensure_decides (s : Source) (event : Topic) (elapsed : Bool) : Decides s elapsed (s.ensure event elapsed) := by
  unfold Source.ensure
  split
  · exact ⟨rfl,Or.inl ⟨rfl,fun _ => nofun⟩⟩
  split
  · exact ⟨rfl,Or.inl ⟨rfl,fun _ => nofun⟩⟩
  · exact trySubscribe_decides s event elapsed

theorem leaves_of_tasks {t : Source} (h : t.tasks = s.tasks) : Leaves s t := by
  intro m event hm
  rw [← h,hm]

theorem cancel_leaves (s : Source) (consumer : ℕ) : Leaves s (s.cancel consumer) := by
  intro m event hm
  unfold Source.cancel at hm
  split at hm
  · rcases TaskTable.get_set_cases hm with ⟨_,heq⟩ | ⟨_,heq⟩
    · cases heq
    · exact heq
  · exact hm

theorem stop_leaves (s : Source) (n : ℕ) (next : Next) (elapsed : Bool) : Leaves s (s.stop n next elapsed).1 := by
  have hgoes (s' : Source) (h : s'.tasks = s.tasks) : Leaves s (s'.unsubscribe next elapsed).1 :=
    leaves_of_tasks ((s'.unsubscribe_tasks next elapsed).trans h)
  exact s.stop_cases (P := fun p => Leaves s p.1) n next elapsed (hgoes s rfl) (fun c => hgoes (s.detach c) rfl)
    (fun c _ => cancel_leaves (s.detach c) c) (fun c _ => leaves_of_tasks rfl)

theorem checkTopic_leaves (s : Source) (n : ℕ) (event : Topic) (elapsed : Bool) :
    Leaves s (s.checkTopic n event elapsed).1 := by
  unfold Source.checkTopic
  split
  · exact stop_leaves s n _ elapsed
  · exact leaves_of_tasks (s.trySubscribe_tasks event elapsed)

theorem ensure_leaves (s : Source) (event : Topic) (elapsed : Bool) : Leaves s (s.ensure event elapsed).1 := by
  unfold Source.ensure
  split
  · exact leaves_of_tasks rfl
  split
  · exact leaves_of_tasks rfl
  · exact leaves_of_tasks (s.trySubscribe_tasks event elapsed)

end Segments

section Steps
variable {s t : Source} {n : ℕ} {x : Thread} {event : Topic} {elapsed topical : Bool} {action : Action}

/-- The outcome of a step: the breaker is left alone, or a refresh that finds it closed or elapsed subscribes. -/
structure Outcome (s : Source) (elapsed : Bool) (t : Source) : Prop where
  failed : (∀ c, s.failed c = false) → ∀ c, t.failed c = false
  breaker : (t.tripped = s.tripped ∧ ¬ Subscribes s t) ∨
    (t.tripped = false ∧ (s.tripped = true → elapsed = true) ∧ Subscribes s t)

theorem not_subscribes_of_leaves (h : Leaves s t) : ¬ Subscribes s t := fun ⟨m,event,ht,hs⟩ => hs (h m event ht)

theorem outcome_of_leaves (hfailed : t.failed = s.failed) (htripped : t.tripped = s.tripped) (hl : Leaves s t) :
    Outcome s elapsed t := ⟨fun hf c => hfailed ▸ hf c,Or.inl ⟨htripped,not_subscribes_of_leaves hl⟩⟩

theorem place_outcome {p : Source × Option Thread} (hd : Decides s elapsed p) (hl : Leaves s p.1)
    (hx : s.tasks.get n = some x) (hget : p.1.tasks.get n = s.tasks.get n) (hne : ∀ event, x ≠ .subscribing event) :
    Outcome s elapsed (Source.place n p) := by
  have hset := TaskTable.get_set (hget.trans hx)
  refine ⟨fun hf c => (congrFun hd.failed c).trans (hf c),?_⟩
  rcases hd.breaker with ⟨htripped,hno⟩ | ⟨htripped,helapsed,event,hevent⟩
  · refine Or.inl ⟨htripped,?_⟩
    rintro ⟨m,event,hm,hold⟩
    rw [Source.place,Source.setTask,hset] at hm
    split at hm
    · exact hno event hm
    · exact hold (hl m event hm)
  · refine Or.inr ⟨htripped,helapsed,n,event,?_,?_⟩
    · rw [Source.place,Source.setTask,hset,if_pos rfl,hevent]
    · rw [hx]
      exact fun heq => hne event (Option.some.inj heq)

theorem placeNew_outcome {p : Source × Option Thread} (hd : Decides s elapsed p) (hl : Leaves s p.1)
    (hnext : p.1.tasks.next = s.tasks.next) : Outcome s elapsed (Source.placeNew p) := by
  obtain ⟨u,o⟩ := p
  cases o with
  | none =>
    rcases hd.breaker with ⟨htripped,_⟩ | ⟨_,_,event,hevent⟩
    · exact outcome_of_leaves hd.failed htripped hl
    · cases hevent
  | some thread =>
    refine ⟨fun hf c => (congrFun hd.failed c).trans (hf c),?_⟩
    rcases hd.breaker with ⟨htripped,hno⟩ | ⟨htripped,helapsed,event,hevent⟩
    · refine Or.inl ⟨htripped,?_⟩
      rintro ⟨m,event,hm,hold⟩
      rcases TaskTable.get_spawn_cases hm with ⟨_,heq⟩ | hm
      · exact hno event (heq ▸ rfl)
      · exact hold (hl m event hm)
    · refine Or.inr ⟨htripped,helapsed,u.tasks.next,event,?_,?_⟩
      · simp only [Source.placeNew,TaskTable.get_spawn,if_true]
        exact hevent
      · rw [hnext,s.tasks.fresh _ le_rfl]
        exact (Option.some_ne_none _).symm

theorem setTask_leaves {u : Source} (hl : Leaves s u) : Leaves s (u.setTask n none) := by
  intro m event hm
  rcases TaskTable.get_set_cases hm with ⟨_,heq⟩ | ⟨_,hm⟩
  · cases heq
  · exact hl m event hm

theorem store_leaves (s : Source) (n : ℕ) (event : Topic) : Leaves s (s.store n event) := by
  intro m event' hm
  rcases TaskTable.get_set_cases hm with ⟨_,heq⟩ | ⟨_,hm⟩
  · cases heq
  · rcases TaskTable.get_spawn_cases hm with ⟨_,heq⟩ | hm
    · cases heq
    · exact hm

theorem stop_outcome {next : Next} (hx : s.tasks.get n = some x) (hne : ∀ event, x ≠ .subscribing event) :
    Outcome s elapsed (Source.place n (s.stop n next elapsed)) :=
  place_outcome (stop_decides s n next elapsed) (stop_leaves s n next elapsed) hx (s.stop_get n next elapsed) hne

theorem checked_outcome {sub : SubId} (hx : s.tasks.get n = some (.checking event sub)) (answer : Bool) :
    Outcome s elapsed
      (Source.place n (if answer then s.checkTopic n event elapsed else s.stop n (.subscribe event) elapsed)) := by
  cases answer with
  | true =>
    exact place_outcome (checkTopic_decides s n event elapsed) (checkTopic_leaves s n event elapsed) hx
      (s.checkTopic_get n event elapsed) (fun _ => nofun)
  | false => exact stop_outcome hx (fun _ => nofun)

theorem stopped_outcome {consumer : ℕ} {next : Next} (hx : s.tasks.get n = some (.stopping consumer next)) :
    Outcome s elapsed (Source.place n (s.unsubscribe next elapsed)) := by
  have htasks := s.unsubscribe_tasks next elapsed
  exact place_outcome (unsubscribe_decides s next elapsed) (leaves_of_tasks htasks) hx
    (congrArg (fun T => T.get n) htasks) (fun _ => nofun)

theorem goOn_outcome {sub : SubId} {next : Next} (hx : s.tasks.get n = some (.unsubscribing sub next))
    (live : List SubId) : Outcome s elapsed (Source.place n (({ s with live := live }).clear.goOn elapsed next)) := by
  have htasks : (({ s with live := live }).clear.goOn elapsed next).1.tasks = s.tasks := Source.goOn_tasks _ next elapsed
  exact place_outcome ((goOn_decides { s with live := live } next elapsed).of_eq rfl rfl) (leaves_of_tasks htasks) hx
    (congrArg (fun T => T.get n) htasks) (fun _ => nofun)

theorem died_outcome (s : Source) (n : ℕ) :
    Outcome s elapsed ({ s with failed := Function.update s.failed n false }.setTask n none) := by
  refine ⟨fun hf c => ?_,Or.inl ⟨rfl,not_subscribes_of_leaves (setTask_leaves (leaves_of_tasks rfl))⟩⟩
  simp only [Source.setTask,Function.update_apply]
  split
  · rfl
  · exact hf c

theorem steps_outcome (h : s.Steps action t) (hb : action.Besides) (he : action.withElapsed elapsed = action) :
    Outcome s elapsed t := by
  cases h with
  | ensure event _ =>
    cases he
    exact placeNew_outcome (ensure_decides s event elapsed) (ensure_leaves s event elapsed) (s.ensure_next event elapsed)
  | unload _ =>
    cases he
    exact placeNew_outcome (stop_decides s _ _ elapsed) (stop_leaves s _ _ elapsed) (s.stop_next _ _ elapsed)
  | checked hx answer _ =>
    cases he
    exact checked_outcome hx answer
  | stopped hx _ _ =>
    cases he
    exact stopped_outcome hx
  | unsubscribed hx _ _ =>
    cases he
    exact goOn_outcome hx _
  | subscribed => exact outcome_of_leaves rfl rfl (store_leaves s _ _)
  | subscribeFailed _ made =>
    refine outcome_of_leaves ?_ ?_ (setTask_leaves (leaves_of_tasks ?_))
    all_goals
      unfold Source.abandon
      split <;> rfl
  | trip hx breach _ =>
    cases he
    cases (show breach = false from hb)
    rw [Bool.or_false]
    exact stop_outcome hx (fun _ => nofun)
  | cancelled => exact outcome_of_leaves rfl rfl (setTask_leaves (leaves_of_tasks rfl))
  | died _ failed =>
    cases (show failed = false from hb)
    exact died_outcome s _
  | connectionLost => exact outcome_of_leaves rfl rfl (leaves_of_tasks rfl)
  | connectionRestored => exact outcome_of_leaves rfl rfl (leaves_of_tasks rfl)

theorem withElapsed_withElapsed (action : Action) (elapsed : Bool) :
    (action.withElapsed elapsed).withElapsed elapsed = action.withElapsed elapsed := by
  cases action <;> rfl

theorem besides_withElapsed (hb : action.Besides) (elapsed : Bool) : (action.withElapsed elapsed).Besides := by
  cases action <;> exact hb

theorem step_outcome (hb : action.Besides) (h : s.step (action.withElapsed elapsed) = some t) : Outcome s elapsed t :=
  steps_outcome (Source.steps_of_step h) (besides_withElapsed hb elapsed) (withElapsed_withElapsed action elapsed)

theorem stepOf_outcome (hb : action.Besides) (h : s.stepOf topical (action.withElapsed elapsed) = some t) :
    Outcome s elapsed t := by
  unfold Source.stepOf at h
  split at h
  · rename_i m elapsed' heq
    split at h
    · rename_i event sub hx
      cases action with
      | checked m' answer _ =>
        cases heq
        cases h
        exact place_outcome (trySubscribe_decides s event elapsed) (leaves_of_tasks (s.trySubscribe_tasks event elapsed)) hx
          (congrArg (fun T => T.get m) (s.trySubscribe_tasks event elapsed)) (fun _ => nofun)
      | _ => cases heq
    · cases h
  · exact step_outcome hb h

end Steps

/-- The refresh in task `n` has found the API connected and no subscription of the source that is active. -/
inductive Asks (s : Source) (event : Topic) : ℕ → Action → Prop
  | ensure (elapsed : Bool) (hconnected : s.connected = true) (hnone : s.push.subId = none) :
      Asks s event s.tasks.next (.ensure event elapsed)
  | checked (n : ℕ) (sub : SubId) (elapsed : Bool) (hx : s.tasks.get n = some (.checking event sub)) :
      Asks s event n (.checked n false elapsed)
  | cleared (n : ℕ) (sub : SubId) (elapsed : Bool) (hx : s.tasks.get n = some (.checking event sub))
      (hnone : s.push.subId = none) : Asks s event n (.checked n true elapsed)
  | stopped (n consumer : ℕ) (elapsed : Bool) (hx : s.tasks.get n = some (.stopping consumer (.subscribe event))) :
      Asks s event n (.stopped n elapsed)
  | unsubscribed (n : ℕ) (sub : SubId) (ok elapsed : Bool)
      (hx : s.tasks.get n = some (.unsubscribing sub (.subscribe event))) : Asks s event n (.unsubscribed n ok elapsed)

/-- The refresh waits in the stop of the subscription that is not active. -/
def Stops (event : Topic) (o : Option Thread) : Prop :=
  (∃ consumer, o = some (.stopping consumer (.subscribe event))) ∨ ∃ sub, o = some (.unsubscribing sub (.subscribe event))

def Resumes (event : Topic) (o : Option Thread) : Prop := Stops event o ∨ o = some (.subscribing event)

section Asking
variable {s t : Source} {n : ℕ} {event : Topic} {elapsed topical : Bool} {action : Action}

theorem trySubscribe_eq (hnone : s.push.subId = none) (he : s.tripped = true → elapsed = true) :
    s.trySubscribe event elapsed = ({ s with tripped := false },some (.subscribing event)) := by
  unfold Source.trySubscribe
  rw [hnone,if_neg (by simp),if_neg]
  simpa using he

theorem goOn_resumes (he : s.tripped = true → elapsed = true) :
    Resumes event (s.clear.goOn elapsed (.subscribe event)).2 :=
  Or.inr (congrArg Prod.snd (trySubscribe_eq (s := s.clear) rfl he))

theorem unsubscribe_resumes (he : s.tripped = true → elapsed = true) :
    Resumes event (s.unsubscribe (.subscribe event) elapsed).2 := by
  unfold Source.unsubscribe
  split
  · exact goOn_resumes he
  split
  · rename_i sub _ _
    exact Or.inl (Or.inr ⟨sub,rfl⟩)
  · exact goOn_resumes he

theorem stop_resumes (hf : ∀ c, s.failed c = false) (he : s.tripped = true → elapsed = true) :
    Resumes event (s.stop n (.subscribe event) elapsed).2 := by
  refine s.stop_cases (P := fun p => Resumes event p.2) n (.subscribe event) elapsed (unsubscribe_resumes he)
    (fun c => unsubscribe_resumes (s := s.detach c) he) (fun c _ => Or.inl (Or.inl ⟨c,rfl⟩)) (fun c hfailed => ?_)
  exact absurd hfailed (by simp [hf c])

theorem get_place {p : Source × Option Thread} {x : Thread} (hx : s.tasks.get n = some x)
    (hget : p.1.tasks.get n = s.tasks.get n) : (Source.place n p).tasks.get n = p.2 := by
  rw [Source.place,Source.setTask,TaskTable.get_set (hget.trans hx),if_pos rfl]

/-- A refresh that finds no active subscription while the breaker is closed or elapsed gets on. -/
theorem resumes_of_asks (hf : ∀ c, s.failed c = false) (he : s.tripped = true → elapsed = true)
    (hasks : Asks s event n action) (h : s.stepOf topical (action.withElapsed elapsed) = some t) :
    Resumes event (t.tasks.get n) := by
  cases hasks with
  | ensure _ hconnected hnone =>
    have hstep : s.step (.ensure event elapsed) = some t := by simpa [Source.stepOf,Action.withElapsed] using h
    have hensure : s.ensure event elapsed = ({ s with tripped := false },some (.subscribing event)) := by
      unfold Source.ensure
      rw [if_neg (by simp [hconnected])]
      split
      · rename_i sub hsub
        rw [hnone] at hsub
        cases hsub
      · exact trySubscribe_eq hnone he
    rw [Source.step,hensure,Option.some.injEq] at hstep
    rw [← hstep]
    exact Or.inr (if_pos rfl)
  | checked _ sub _ hx =>
    have hstep : s.step (.checked n false elapsed) = some t := by simpa [Source.stepOf,Action.withElapsed] using h
    simp only [Source.step,hx,Option.some.injEq,Bool.false_eq_true,if_false] at hstep
    rw [← hstep,get_place hx (s.stop_get n _ elapsed)]
    exact stop_resumes hf he
  | cleared _ sub _ hx hnone =>
    have hplace : t = Source.place n (s.trySubscribe event elapsed) := by
      cases topical with
      | false => simpa [Source.stepOf,Action.withElapsed,hx,eq_comm] using h
      | true => simpa [Source.stepOf,Action.withElapsed,Source.step,hx,Source.checkTopic,hnone,eq_comm] using h
    rw [hplace,get_place hx (congrArg (fun T => T.get n) (s.trySubscribe_tasks event elapsed))]
    exact Or.inr (congrArg Prod.snd (trySubscribe_eq hnone he))
  | stopped _ consumer _ hx =>
    have hstep : s.step (.stopped n elapsed) = some t := by simpa [Source.stepOf,Action.withElapsed] using h
    simp only [Source.step,hx] at hstep
    split at hstep
    · cases hstep
      rw [get_place hx (congrArg (fun T => T.get n) (s.unsubscribe_tasks _ elapsed))]
      exact unsubscribe_resumes he
    · cases hstep
  | unsubscribed _ sub ok _ hx =>
    have hstep : s.step (.unsubscribed n ok elapsed) = some t := by simpa [Source.stepOf,Action.withElapsed] using h
    simp only [Source.step,hx,Option.some.injEq] at hstep
    rw [← hstep,get_place hx]
    · exact goOn_resumes (s := { s with live := _ }) he
    · exact congrArg (fun T => T.get n) (Source.goOn_tasks _ _ elapsed)

end Asking

/-- The source and the breaker agree, and no drain task has raised. -/
structure Paired (config : CircuitBreakerConfig) (s : Timed) : Prop where
  tripped : s.source.tripped = s.breaker.tripped
  config : s.breaker.config = config
  failed : ∀ c, s.source.failed c = false

section Runs
variable {topical : Bool} {config : CircuitBreakerConfig} {s t u v : Timed} {e : Moment} {now : ℤ}
variable {n messageCount : ℕ} {action : Action}

theorem recordBatch_cases (h : s.recordBatch now n messageCount = some t) :
    (t = ⟨s.source,(s.breaker.recordBatch now messageCount).1⟩ ∧ (s.breaker.recordBatch now messageCount).2 = false) ∨
    ∃ sub elapsed, s.source.tasks.get n = some (.draining sub false) ∧ (s.breaker.recordBatch now messageCount).2 = true ∧
      t = ⟨Source.place n ({ s.source with tripped := true }.stop n .finish elapsed),(s.breaker.recordBatch now messageCount).1⟩ := by
  unfold Timed.recordBatch at h
  split at h
  · rename_i sub hx
    split at h
    · rename_i breaker heq
      cases h
      exact Or.inl (by simp [heq])
    · rename_i breaker heq
      obtain ⟨source,hsource,rfl⟩ := Option.map_eq_some_iff.mp h
      simp only [Source.step,hx,Bool.or_true,Option.some.injEq] at hsource
      rw [← hsource]
      exact Or.inr ⟨sub,_,hx,by rw [heq],by rw [heq]⟩
  · cases h

theorem besides_cases (h : s.besides topical now action = some t) :
    s.source.stepOf topical (action.withElapsed (s.breaker.shouldAttemptReset now)) = some t.source ∧
      t.breaker = if s.breaker.tripped && !t.source.tripped then s.breaker.reset else s.breaker := by
  obtain ⟨source,hsource,rfl⟩ := Option.map_eq_some_iff.mp h
  exact ⟨hsource,rfl⟩

theorem unsubscribe_finish (s : Source) (elapsed : Bool) (event : Topic) :
    (s.unsubscribe .finish elapsed).2 ≠ some (.subscribing event) := by
  unfold Source.unsubscribe
  split
  · nofun
  split
  · nofun
  · nofun

theorem stop_finish (s : Source) (n : ℕ) (elapsed : Bool) (event : Topic) :
    (s.stop n .finish elapsed).2 ≠ some (.subscribing event) :=
  s.stop_cases (P := fun p => p.2 ≠ some (.subscribing event)) n .finish elapsed (unsubscribe_finish s elapsed event)
    (fun c => unsubscribe_finish (s.detach c) elapsed event) (fun _ _ => nofun) (fun _ _ => nofun)

theorem trip_outcome {source : Source} {sub : SubId} (hx : source.tasks.get n = some (.draining sub false)) (elapsed : Bool) :
    let stopped := Source.place n ({ source with tripped := true }.stop n .finish elapsed)
    stopped.tripped = true ∧ ¬ Subscribes source stopped ∧ ((∀ c, source.failed c = false) → ∀ c, stopped.failed c = false) := by
  have hd := stop_decides { source with tripped := true } n .finish elapsed
  have houtcome : Outcome { source with tripped := true } elapsed
      (Source.place n ({ source with tripped := true }.stop n .finish elapsed)) := stop_outcome hx (fun _ => nofun)
  rcases hd.breaker with ⟨htripped,hno⟩ | ⟨_,_,event,hevent⟩
  · refine ⟨htripped,?_,houtcome.failed⟩
    rcases houtcome.breaker with ⟨_,hnot⟩ | ⟨hfalse,_⟩
    · exact hnot
    · exact nomatch (show true = false from htripped.symm.trans hfalse)
  · exact absurd hevent (stop_finish _ n elapsed event)

structure Advances (s : Timed) (now : ℤ) (t : Timed) : Prop where
  tripped : t.source.tripped = t.breaker.tripped
  config : t.breaker.config = s.breaker.config
  failed : (∀ c, s.source.failed c = false) → ∀ c, t.source.failed c = false
  opened : s.breaker.tripped = false → t.breaker.tripped = true → t.breaker.openedAt = some now
  /-- A breaker that is open stays as it is, up to a subscribe call. -/
  kept : s.breaker.tripped = true → ¬ Subscribes s.source t.source → t.breaker = s.breaker
  subscribes : Subscribes s.source t.source → s.breaker.tripped = true →
    s.breaker.shouldAttemptReset now = true ∧ t.breaker = s.breaker.reset

theorem advances_batch (hs : Paired config s) (h : s.recordBatch now n messageCount = some t) : Advances s now t := by
  have htripped := s.breaker.tripped_recordBatch now messageCount
  rcases recordBatch_cases h with ⟨rfl,hno⟩ | ⟨sub,elapsed,hx,htrips,rfl⟩
  · rw [hno,Bool.or_false] at htripped
    refine ⟨hs.tripped.trans htripped.symm,CircuitBreaker.config_recordBatch,id,?_,?_,?_⟩
    · intro hclosed hopen
      rw [htripped,hclosed] at hopen
      cases hopen
    · intro hopen _
      exact congrArg Prod.fst (CircuitBreaker.recordBatch_of_tripped hopen)
    · exact fun hsub => absurd hsub (not_subscribes_of_leaves (leaves_of_tasks rfl))
  · obtain ⟨hopen,hnot,hfailed⟩ := trip_outcome hx elapsed
    rw [htrips,Bool.or_true] at htripped
    refine ⟨hopen.trans htripped.symm,CircuitBreaker.config_recordBatch,hfailed,?_,?_,?_⟩
    · exact fun _ _ => CircuitBreaker.openedAt_of_trips htrips
    · intro hold _
      exact congrArg Prod.fst (CircuitBreaker.recordBatch_of_tripped hold)
    · exact fun hsub => absurd hsub hnot

theorem advances_besides (hs : Paired config s) (hb : action.Besides) (h : s.besides topical now action = some t) :
    Advances s now t := by
  obtain ⟨hsource,hbreaker⟩ := besides_cases h
  have houtcome := stepOf_outcome hb hsource
  rcases houtcome.breaker with ⟨hsame,hnot⟩ | ⟨hclosed,helapsed,hsub⟩
  · have hkept : t.breaker = s.breaker := by
      rw [hbreaker,hsame,hs.tripped]
      cases s.breaker.tripped <;> rfl
    refine ⟨by rw [hsame,hs.tripped,hkept],by rw [hkept],houtcome.failed,?_,fun _ _ => hkept,fun hsub => absurd hsub hnot⟩
    intro hclosed hopen
    rw [hkept,hclosed] at hopen
    cases hopen
  · have hreset : s.breaker.tripped = true → t.breaker = s.breaker.reset := by
      intro hopen
      rw [hbreaker,hclosed,hopen]
      rfl
    have hkept : s.breaker.tripped = false → t.breaker = s.breaker := by
      intro hopen
      rw [hbreaker,hopen]
      rfl
    refine ⟨?_,?_,houtcome.failed,?_,fun _ hnot => absurd hsub hnot,fun _ hopen => ⟨?_,hreset hopen⟩⟩
    · cases hopen : s.breaker.tripped with
      | true => rw [hclosed,hreset hopen]; rfl
      | false => rw [hclosed,hkept hopen,hopen]
    · cases hopen : s.breaker.tripped with
      | true => rw [hreset hopen]; rfl
      | false => rw [hkept hopen]
    · intro hopen hopen'
      rw [hkept hopen,hopen] at hopen'
      cases hopen'
    · exact helapsed (hs.tripped.trans hopen)

theorem advances_of_step (hs : Paired config s) (h : s.step topical e = some t) : Advances s e.now t := by
  unfold Timed.step at h
  split at h
  · exact advances_batch hs h
  · split at h
    · rename_i hb
      exact advances_besides hs hb h
    · cases h

theorem Paired.step (hs : Paired config s) (h : s.step topical e = some t) : Paired config t := by
  have hadv := advances_of_step hs h
  exact ⟨hadv.tripped,hadv.config.trans hs.config,hadv.failed hs.failed⟩

theorem paired_of_reachable (hs : (cooldownSystem topical config).Reachable s) : Paired config s := by
  refine hs.invariant ?_ ?_
  · rintro s rfl
    exact ⟨rfl,rfl,fun _ => rfl⟩
  · intro s e t hs _ hstep
    exact hs.step hstep

end Runs

def runsFrom (topical : Bool) (t : Timed) : System Timed Moment where
  init s := s = t
  step s e := s.step topical e

/-- What follows a trip at `openedAt` that leaves the state `t`. -/
structure CooldownLaw (topical : Bool) (config : CircuitBreakerConfig) (t : Timed) (openedAt : ℤ) : Prop where
  /-- As long as no event finds the cooldown over, none subscribes. -/
  quiet : ∀ u, (runsFrom topical t).Reach (fun _ e => e.now < openedAt + config.cooldown) u →
    ∀ e v, e.now < openedAt + config.cooldown → u.step topical e = some v → ¬ Subscribes u.source v.source
  /-- As long as no event subscribes, a refresh that finds no active subscription after the cooldown waits for its stop, or
  subscribes with a breaker that is closed and has an empty streak. -/
  resumed : ∀ u, (runsFrom topical t).Reach (fun s e => ∀ t, s.step topical e = some t → ¬ Subscribes s.source t.source) u →
    ∀ now n event action v, openedAt + config.cooldown ≤ now → Asks u.source event n action →
      u.step topical ⟨now,.besides action⟩ = some v → Stops event (v.source.tasks.get n) ∨
        (v.source.tasks.get n = some (.subscribing event) ∧ v.breaker.tripped = false ∧ v.breaker.consecutiveBreaches = 0)

section Trips
variable {topical : Bool} {config : CircuitBreakerConfig} {t u v : Timed} {e : Moment} {now openedAt : ℤ}
variable {n : ℕ} {event : Topic} {action : Action}

structure StillOpen (config : CircuitBreakerConfig) (openedAt : ℤ) (u : Timed) : Prop extends Paired config u where
  isOpen : u.breaker.tripped = true
  since : u.breaker.openedAt = some openedAt

theorem StillOpen.shouldAttemptReset (hu : StillOpen config openedAt u) :
    u.breaker.shouldAttemptReset now = decide (openedAt + config.cooldown ≤ now) := by
  unfold CircuitBreaker.shouldAttemptReset
  rw [hu.isOpen,hu.since,hu.config]
  simp only [decide_eq_decide]
  omega

theorem StillOpen.step (hu : StillOpen config openedAt u) (h : u.step topical e = some v)
    (hnot : ¬ Subscribes u.source v.source) : StillOpen config openedAt v := by
  have hkept := (advances_of_step hu.toPaired h).kept hu.isOpen hnot
  exact ⟨hu.toPaired.step h,hkept ▸ hu.isOpen,hkept ▸ hu.since⟩

theorem StillOpen.not_subscribes (hu : StillOpen config openedAt u) (hnow : e.now < openedAt + config.cooldown)
    (h : u.step topical e = some v) : ¬ Subscribes u.source v.source := by
  intro hsub
  have helapsed := ((advances_of_step hu.toPaired h).subscribes hsub hu.isOpen).1
  rw [hu.shouldAttemptReset,decide_eq_true_iff] at helapsed
  omega

theorem not_subscribing_of_asks {s : Source} (hasks : Asks s event n action) : s.tasks.get n ≠ some (.subscribing event) := by
  cases hasks with
  | ensure _ _ _ =>
    rw [s.tasks.fresh _ le_rfl]
    nofun
  | checked _ _ _ hx | cleared _ _ _ hx _ | stopped _ _ _ hx | unsubscribed _ _ _ _ hx =>
    rw [hx]
    nofun

theorem StillOpen.resumed (hu : StillOpen config openedAt u) (hnow : openedAt + config.cooldown ≤ now)
    (hasks : Asks u.source event n action) (h : u.step topical ⟨now,.besides action⟩ = some v) :
    Stops event (v.source.tasks.get n) ∨ (v.source.tasks.get n = some (.subscribing event) ∧
      v.breaker.tripped = false ∧ v.breaker.consecutiveBreaches = 0) := by
  have hadv := advances_of_step hu.toPaired h
  have helapsed : u.breaker.shouldAttemptReset now = true := by rw [hu.shouldAttemptReset,decide_eq_true hnow]
  simp only [Timed.step] at h
  split at h
  · have hsource := (besides_cases h).1
    rcases resumes_of_asks hu.failed (fun _ => helapsed) hasks hsource with hstops | hsubscribing
    · exact Or.inl hstops
    · have hreset := (hadv.subscribes ⟨n,event,hsubscribing,not_subscribing_of_asks hasks⟩ hu.isOpen).2
      refine Or.inr ⟨hsubscribing,?_,?_⟩
      · rw [hreset]
        rfl
      · rw [hreset]
        rfl
  · cases h

theorem cooldownLaw_of_stillOpen (ht : StillOpen config openedAt t) : CooldownLaw topical config t openedAt where
  quiet u hu e v hnow h := by
    have hopen : StillOpen config openedAt u := by
      refine hu.invariant ?_ ?_
      · rintro s rfl
        exact ht
      · intro s e' s' hs hnow' hstep
        exact hs.step hstep (hs.not_subscribes hnow' hstep)
    exact hopen.not_subscribes hnow h
  resumed u hu now n event action v hnow hasks h := by
    have hopen : StillOpen config openedAt u := by
      refine hu.invariant ?_ ?_
      · rintro s rfl
        exact ht
      · intro s e' s' hs hno hstep
        exact hs.step hstep (hno s' hstep)
    exact hopen.resumed hnow hasks h

/-- A closed breaker trips exactly at a streak, and from a trip on the source keeps its cooldown, for alerts too. -/
theorem circuitBreaker_law (config : CircuitBreakerConfig) :
    (∀ past now messageCount, (CircuitBreaker.after config past).tripped = false →
      (((CircuitBreaker.after config past).recordBatch now messageCount).2 = true ↔
        CircuitBreaker.Streak config (messageCount :: CircuitBreaker.sinceReset past))) ∧
    ∀ topical s, (cooldownSystem topical config).Reachable s → ∀ e t, s.step topical e = some t →
      s.breaker.tripped = false → t.breaker.tripped = true → CooldownLaw topical config t e.now := by
  refine ⟨fun _ _ _ hclosed => CircuitBreaker.trips_iff hclosed,fun topical s hs e t hstep hclosed hopen => ?_⟩
  have hpaired := paired_of_reachable hs
  exact cooldownLaw_of_stillOpen ⟨hpaired.step hstep,hopen,(advances_of_step hpaired hstep).opened hclosed hopen⟩

/-- A source that subscribes and whose breaker trips at its third batch, of more than twenty messages each. -/
theorem circuitBreaker_law_third_batch : ∃ t, t.breaker.tripped = true ∧ CooldownLaw false {} t 3 := by
  obtain ⟨s,hs,hclosed,hopen⟩ := System.exists_reach_of_run (cooldownSystem false {}) (fun _ _ => True) rfl
    [⟨0,.besides (.ensure "alert.list" false)⟩,⟨0,.besides (.subscribed 0)⟩,⟨1,.batch 1 21⟩,⟨2,.batch 1 30⟩]
    (fun s => s.breaker.tripped = false ∧ ((s.step false ⟨3,.batch 1 21⟩).any (fun t => t.breaker.tripped)) = true) (by decide)
  obtain ⟨t,hstep,ht⟩ := (Option.any_eq_true _ _).mp hopen
  exact ⟨t,ht,(circuitBreaker_law {}).2 false s hs ⟨3,.batch 1 21⟩ t hstep hclosed ht⟩

end Trips
end TruenasCE.Push
