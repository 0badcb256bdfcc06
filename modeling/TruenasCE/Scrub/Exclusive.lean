import TruenasCE.Library.Past
import TruenasCE.Scrub.Buttons

/-! # Scrub actions in exclusive sections

What a step does is said once, as a move of one task; the invariant is where each task stands in
the history.
-/
namespace TruenasCE.Scrub
open Library

def Event.task : Event → ℕ
  | .entered n => n
  | .left n => n
  | .requested n => n
  | .landed n _ => n
  | .checked n _ => n
  | .sent n _ _ => n
  | .raised n _ => n

/-- No press enters or leaves its section, and no scrub RPC is sent. -/
def Event.Quiet : Event → Prop
  | .entered _ => False
  | .left _ => False
  | .sent _ _ _ => False
  | _ => True

def Unsent (n : ℕ) (h : List Event) : Prop := ∀ button poolName, .sent n button poolName ∉ h

/-- The press has entered its section, and nobody has entered or left one or sent an RPC since. -/
def InSection (n : ℕ) : List Event → Prop := Since Event.Quiet (After (.entered n) (fun _ => True))

/-- The re-read of the press was requested in its section, which is still the same. -/
def Rereading (n : ℕ) : List Event → Prop := Since Event.Quiet (After (.requested n) (InSection n))

/-- What a step of a task can do: the events, where the task is afterwards, and who has `scrub_lock`. -/
inductive Move (lock : Option ℕ) (n : ℕ) : Task → List Event → Option Task → Option ℕ → Prop
  | request : Move lock n (.refresh false) [.requested n] (some (.refresh true)) lock
  | land (a : Answer) : Move lock n (.refresh true) [.landed n a] none lock
  | enter {b : Button} {p : String} (hb : b.scrubStates ≠ []) (hl : lock = none) :
      Move lock n (.press b p .queued) [.entered n] (some (.press b p .waiting)) (some n)
  | run {b : Button} {p : String} (hb : b.scrubStates = []) (hl : lock = none) :
      Move lock n (.press b p .queued) [.sent n b p,.entered n] (some (.press b p .sending)) (some n)
  | reread {b : Button} {p : String} :
    Move lock n (.press b p .waiting) [.requested n] (some (.press b p .reading)) lock
  | unusable {b : Button} {p : String} {a : Answer} (ha : a.Unusable) :
      Move lock n (.press b p .reading) [.left n,.raised n ⟨"scrub_failed",p⟩,.landed n a] none none
  | notPossible {b : Button} {p : String} {pools : List Pool} :
      Move lock n (.press b p .reading)
        [.left n,.raised n ⟨b.key ++ "_not_possible",p⟩,.checked n (scrubState pools p),
          .landed n ⟨some pools,false⟩] none none
  | act {b : Button} {p : String} {pools : List Pool} {state : String} (hs :
    scrubState pools p = some state) (hb : state ∈ b.scrubStates) :
      Move lock n (.press b p .reading) [.sent n b p,.checked n (some state),.landed n ⟨some pools,false⟩]
        (some (.press b p .sending)) lock
  | taken {b : Button} {p : String} : Move lock n (.press b p .sending) [] (some (.press b p .waitingAfter)) lock
  | refused {b : Button} {p : String} : Move lock n (.press b p .sending) [.left n,
    .raised n ⟨"scrub_failed",p⟩] none none
  | rereadAfter {b : Button} {p : String} :
    Move lock n (.press b p .waitingAfter) [.requested n] (some (.press b p .readingAfter)) lock
  | landAfter {b : Button} {p : String} (a : Answer) :
    Move lock n (.press b p .readingAfter) [.left n,.landed n a] none none
  | cancelInside {t : Task} (hl : lock = some n) : Move lock n t [.left n] none none
  | cancelOutside {t : Task} (hl : lock ≠ some n) : Move lock n t [] none lock

def Moved (s s' : State) : Prop :=
  ∃ n t events t', s.tasks.get n = some t ∧ s'.tasks = s.tasks.set n t' ∧ s'.history = events ++ s.history ∧
    Move s.scrubLock n t events t' s'.scrubLock

/-- A task is started that has not taken `scrub_lock`. -/
def Started (s s' : State) : Prop :=
  ∃ t, ((∃ reading, t = .refresh reading) ∨ ∃ b p, t = .press b p .queued) ∧ s'.tasks = s.tasks.spawn t ∧
    s'.history = s.history ∧ s'.scrubLock = s.scrubLock

theorem take_moved {s s' : State} {n : ℕ} (h : s.take n = some s') : Moved s s' := by
  unfold State.take at h
  split at h
  · rename_i ht
    obtain ⟨_,hs⟩ := Option.ite_none_right_eq_some.mp h
    cases hs
    exact ⟨n,_,[.requested n],_,ht,rfl,rfl,.request⟩
  · rename_i b p ht
    obtain ⟨hl,hs⟩ := Option.ite_none_right_eq_some.mp h
    cases hs
    unfold State.enter
    dsimp only
    split
    · rename_i hb
      exact ⟨n,_,[.sent n b p,.entered n],_,ht,rfl,rfl,.run hb hl⟩
    · rename_i hb
      exact ⟨n,_,[.entered n],_,ht,rfl,rfl,.enter hb hl⟩
  · rename_i ht
    obtain ⟨_,hs⟩ := Option.ite_none_right_eq_some.mp h
    cases hs
    exact ⟨n,_,[.requested n],_,ht,rfl,rfl,.reread⟩
  · rename_i ht
    obtain ⟨_,hs⟩ := Option.ite_none_right_eq_some.mp h
    cases hs
    exact ⟨n,_,[.requested n],_,ht,rfl,rfl,.rereadAfter⟩
  · cases h

theorem check_moved {s : State} {n : ℕ} {b : Button} {p : String}
    (ht : s.tasks.get n = some (.press b p .reading)) (a : Answer) :
    Moved s (s.check n b p a) := by
  unfold State.check
  dsimp only
  split
  · rename_i ha
    exact ⟨n,_,[.left n,.raised n ⟨"scrub_failed",p⟩,.landed n a],_,ht,rfl,rfl,.unusable ha⟩
  · rename_i ha
    obtain ⟨pools,stale⟩ := a
    cases pools with
    | none => exact absurd (Or.inl rfl) ha
    | some pools =>
      obtain rfl : stale = false := by
        cases stale with
        | false => rfl
        | true => exact absurd (Or.inr rfl) ha
      have hpools : (s.land n ⟨some pools,false⟩).pools = pools := rfl
      rw [hpools]
      split
      · exact ⟨n,_,[.left n,.raised n ⟨b.key ++ "_not_possible",p⟩,.checked n (scrubState pools p),
          .landed n ⟨some pools,false⟩],_,
          ht,rfl,rfl,.notPossible⟩
      · rename_i hb
        cases hs : scrubState pools p with
        | none =>
          rw [hs] at hb
          exact absurd rfl hb
        | some state =>
          rw [hs] at hb
          exact ⟨n,_,[.sent n b p,.checked n (some state),.landed n ⟨some pools,false⟩],_,ht,rfl,rfl,
            .act hs (by simpa using hb)⟩

theorem answer_moved {s s' : State} {n : ℕ} {a : Answer} (h : s.answer n a = some s') : Moved s s' := by
  unfold State.answer at h
  split at h
  · rename_i ht
    cases h
    exact ⟨n,_,[.landed n a],_,ht,rfl,rfl,.land a⟩
  · rename_i ht
    cases h
    exact check_moved ht a
  · rename_i ht
    cases h
    exact ⟨n,_,[.left n,.landed n a],_,ht,rfl,rfl,.landAfter a⟩
  · cases h

theorem result_moved {s s' : State} {n : ℕ} {taken : Bool} (h : s.result n taken = some s') : Moved s s' := by
  unfold State.result at h
  split at h
  · rename_i b p ht
    cases h
    cases taken with
    | true => exact ⟨n,_,[],_,ht,rfl,rfl,.taken⟩
    | false => exact ⟨n,_,[.left n,.raised n ⟨"scrub_failed",p⟩],_,ht,rfl,rfl,.refused⟩
  · cases h

theorem cancel_moved {s s' : State} {n : ℕ} (h : s.cancel n = some s') : Moved s s' := by
  unfold State.cancel at h
  split at h
  · cases h
  · rename_i t ht
    cases h
    by_cases hl : s.scrubLock = some n
    · rw [if_pos hl]
      by_cases hr : s.refreshLock = some n
      · rw [if_pos hr]
        exact ⟨n,t,[.left n],_,ht,rfl,rfl,.cancelInside hl⟩
      · rw [if_neg hr]
        exact ⟨n,t,[.left n],_,ht,rfl,rfl,.cancelInside hl⟩
    · rw [if_neg hl]
      by_cases hr : s.refreshLock = some n
      · rw [if_pos hr]
        exact ⟨n,t,[],_,ht,rfl,rfl,.cancelOutside hl⟩
      · rw [if_neg hr]
        exact ⟨n,t,[],_,ht,rfl,rfl,.cancelOutside hl⟩

theorem step_cases {s s' : State} {a : Action} (h : step s a = some s') : s' = s ∨ Started s s' ∨ Moved s s' := by
  cases a with
  | refresh =>
    cases h
    exact Or.inr (Or.inl ⟨_,Or.inl ⟨_,rfl⟩,rfl,rfl,rfl⟩)
  | press b p i =>
    cases h
    unfold State.asyncPress
    split
    · exact Or.inl rfl
    · split
      · exact Or.inl rfl
      · exact Or.inr (Or.inl ⟨_,Or.inr ⟨_,_,rfl⟩,rfl,rfl,rfl⟩)
  | take n => exact Or.inr (Or.inr (take_moved h))
  | answer n a => exact Or.inr (Or.inr (answer_moved h))
  | result n taken => exact Or.inr (Or.inr (result_moved h))
  | cancel n => exact Or.inr (Or.inr (cancel_moved h))

def Place (lock : Option ℕ) (n : ℕ) (h : List Event) : Task → Prop
  | .refresh _ => lock ≠ some n ∧ ∀ e ∈ h, e.task = n → e.Quiet
  | .press _ _ .queued => lock ≠ some n ∧ ∀ e ∈ h, e.task = n → e.Quiet
  | .press b _ .waiting => lock = some n ∧ b.scrubStates ≠ [] ∧ Unsent n h ∧ InSection n h
  | .press b _ .reading => lock = some n ∧ b.scrubStates ≠ [] ∧ Unsent n h ∧ Rereading n h
  | .press _ _ _ => lock = some n ∧ ¬ Unsent n h

structure Inv (s : State) : Prop where
  numbers : ∀ e ∈ s.history, e.task < s.tasks.next
  place : ∀ n t, s.tasks.get n = some t → Place s.scrubLock n s.history t
  gone : ∀ n, .left n ∈ s.history → s.tasks.get n = none
  holder : ∀ n, s.scrubLock = some n → n < s.tasks.next

section Move
variable {lock lock' : Option ℕ} {n m : ℕ} {t u : Task} {t' : Option Task} {events h : List Event}

theorem Move.task_eq (hm : Move lock n t events t' lock') : ∀ e ∈ events, e.task = n := by
  cases hm <;> simp [Event.task]

theorem Unsent.append (hh : Unsent n h) (he : Unsent n events) : Unsent n (events ++ h) := by
  intro b p hmem
  rcases List.mem_append.mp hmem with hmem | hmem
  · exact he b p hmem
  · exact hh b p hmem

theorem unsent_of_quiet (hq : ∀ e ∈ h, e.task = n → e.Quiet) : Unsent n h := fun _ _ hmem => hq _ hmem rfl

theorem not_unsent_append (events : List Event) (hh : ¬ Unsent n h) : ¬ Unsent n (events ++ h) :=
  fun hu => hh (fun b p hmem => hu b p (List.mem_append_right _ hmem))

/-- While another task has `scrub_lock` a move is quiet and leaves it the lock. -/
theorem Move.quiet (hm : Move lock n t events t' lock') (hp : Place lock n h t) (hl : lock = some m) (hne : m ≠ n) :
    (∀ e ∈ events, e.Quiet) ∧ lock' = some m := by
  have hother : lock ≠ some n := by
    rw [hl]
    exact fun h => hne (Option.some.inj h)
  cases hm with
  | request => exact ⟨by simp [Event.Quiet],hl⟩
  | land a => exact ⟨by simp [Event.Quiet],hl⟩
  | enter hb hnone => simp [hnone] at hl
  | run hb hnone => simp [hnone] at hl
  | cancelInside hin => exact absurd hin hother
  | cancelOutside _ => exact ⟨by simp,hl⟩
  | _ => exact absurd hp.1 hother

theorem Move.lock_of_other (hm : Move lock n t events t' lock') (hl : lock' = some m) (hne : m ≠ n) :
    lock = some m := by
  cases hm <;> simp_all

theorem Move.none_of_left (hm : Move lock n t events t' lock') (hl : .left n ∈ events) : t' = none := by
  cases hm <;> simp_all

theorem Place.other (hm : Move lock n t events t' lock') (hp : Place lock n h t) (hu : Place lock m h u) (hne : m ≠ n) :
    Place lock' m (events ++ h) u := by
  have htask : ∀ e ∈ events, e.task ≠ m := fun e he h => hne (h.symm.trans (hm.task_eq e he))
  have hout : lock ≠ some m → (∀ e ∈ h, e.task = m → e.Quiet) → lock' ≠ some m ∧ ∀ e ∈ events ++
    h, e.task = m → e.Quiet := by
    intro hl hq
    refine ⟨fun h => hl (hm.lock_of_other h hne),fun e he => ?_⟩
    rcases List.mem_append.mp he with he | he
    · exact fun h => absurd h (htask e he)
    · exact hq e he
  cases u with
  | refresh reading => exact hout hu.1 hu.2
  | press b p phase =>
    cases phase with
    | queued => exact hout hu.1 hu.2
    | waiting =>
      obtain ⟨hl,hb,hs,hin⟩ := hu
      obtain ⟨hq,hl'⟩ := hm.quiet hp hl hne
      exact ⟨hl',hb,hs.append (unsent_of_quiet (fun e he h => absurd h (htask e he))),Since.append hin hq⟩
    | reading =>
      obtain ⟨hl,hb,hs,hin⟩ := hu
      obtain ⟨hq,hl'⟩ := hm.quiet hp hl hne
      exact ⟨hl',hb,hs.append (unsent_of_quiet (fun e he h => absurd h (htask e he))),Since.append hin hq⟩
    | _ => exact ⟨(hm.quiet hp hu.1 hne).2,not_unsent_append _ hu.2⟩

theorem Move.place (hm : Move lock n t events (some u) lock') (hp : Place lock n h t) :
    Place lock' n (events ++ h) u := by
  cases hm with
  | request => exact ⟨hp.1,by simpa [Event.task,Event.Quiet] using hp.2⟩
  | enter hb hl => exact ⟨rfl,hb,(unsent_of_quiet hp.2).append (by simp [Unsent]),.now ⟨h,rfl,trivial⟩⟩
  | run hb hl => exact ⟨rfl,fun hu => hu _ _ (List.mem_cons_self ..)⟩
  | reread =>
    obtain ⟨hl,hb,hs,hin⟩ := hp
    exact ⟨hl,hb,hs.append (by simp [Unsent]),.now ⟨h,rfl,hin⟩⟩
  | act hs hb => exact ⟨hp.1,fun hu => hu _ _ (List.mem_cons_self ..)⟩
  | taken => exact hp
  | rereadAfter => exact ⟨hp.1,not_unsent_append [.requested n] hp.2⟩

end Move

theorem initial_inv : Inv initial where
  numbers := by simp [initial]
  place := by simp [initial]
  gone := by simp [initial]
  holder := by simp [initial]

theorem Started.inv {s s' : State} (hi : Inv s) (hs : Started s s') : Inv s' := by
  obtain ⟨t,ht,htasks,hhist,hlock⟩ := hs
  refine ⟨fun e he => ?_,fun n u hu => ?_,fun n hn => ?_,fun n hn => ?_⟩
  · rw [hhist] at he
    rw [htasks]
    exact (hi.numbers e he).trans (Nat.lt_succ_self _)
  · rw [htasks] at hu
    rw [hhist,hlock]
    rcases TaskTable.get_spawn_cases hu with ⟨rfl,rfl⟩ | hu
    · have hlock' : s.scrubLock ≠ some s.tasks.next := fun h => lt_irrefl _ (hi.holder _ h)
      have hquiet : ∀ e ∈ s.history, e.task = s.tasks.next → e.Quiet := fun e he h =>
        absurd (hi.numbers e he) (by omega)
      rcases ht with ⟨reading,rfl⟩ | ⟨b,p,rfl⟩
      · exact ⟨hlock',hquiet⟩
      · exact ⟨hlock',hquiet⟩
    · exact hi.place n u hu
  · rw [hhist] at hn
    rw [htasks,TaskTable.get_spawn,if_neg (by have := hi.numbers _ hn; simp only [Event.task] at this; omega)]
    exact hi.gone n hn
  · rw [hlock] at hn
    rw [htasks]
    exact (hi.holder n hn).trans (Nat.lt_succ_self _)

theorem Moved.inv {s s' : State} (hi : Inv s) (hm : Moved s s') : Inv s' := by
  obtain ⟨n,t,events,t',ht,htasks,hhist,hmove⟩ := hm
  have hn := TaskTable.lt_next ht
  refine ⟨fun e he => ?_,fun m u hu => ?_,fun m hleft => ?_,fun m hl => ?_⟩
  · rw [hhist] at he
    rw [htasks]
    rcases List.mem_append.mp he with he | he
    · rw [hmove.task_eq e he]
      exact hn
    · exact hi.numbers e he
  · rw [htasks] at hu
    rw [hhist]
    rcases TaskTable.get_set_cases hu with ⟨rfl,rfl⟩ | ⟨hne,hu⟩
    · exact hmove.place (hi.place m t ht)
    · exact Place.other hmove (hi.place n t ht) (hi.place m u hu) hne
  · rw [hhist] at hleft
    rw [htasks,TaskTable.get_set ht]
    rcases List.mem_append.mp hleft with hleft | hleft
    · obtain rfl : m = n := hmove.task_eq _ hleft
      rw [if_pos rfl]
      exact hmove.none_of_left hleft
    · have hmn : m ≠ n := by
        rintro rfl
        rw [hi.gone m hleft] at ht
        cases ht
      rw [if_neg hmn]
      exact hi.gone m hleft
  · rw [htasks]
    by_cases hmn : m = n
    · exact hmn ▸ hn
    · exact hi.holder m (hmove.lock_of_other hl hmn)

/-- The press has requested a re-read in its section, which landed without leaving the pools stale,
and the state that the re-read showed was checked at once. -/
def CheckedBefore (n : ℕ) (b : Button) (p : String) (past : List Event) : Prop :=
  ∃ pools, ∃ state ∈ b.scrubStates, scrubState pools p = some state ∧
    After (.checked n (some state)) (After (.landed n ⟨some pools,false⟩) (Rereading n)) past

/-- Each RPC of a press that needs a check is preceded by it in the same section. -/
def FreshlyChecked : List Event → Prop :=
  Always (fun h => ∀ n b p past, h = .sent n b p :: past → b.scrubStates ≠ [] → CheckedBefore n b p past)

/-- A press whose re-read raises or leaves the pools stale raises and sends nothing. -/
def FailsUnchecked (h : List Event) : Prop :=
  ∀ later n a earlier, h = later ++ .landed n a :: earlier → a.Unusable → .entered n ∈ earlier → Unsent n earlier →
    ∃ rest p, later = rest ++ [.left n,.raised n ⟨"scrub_failed",p⟩] ∧ Unsent n rest

theorem FreshlyChecked.cons {e : Event} {h : List Event} (hh : FreshlyChecked h)
    (he : ∀ n b p, e = .sent n b p → b.scrubStates ≠ [] → CheckedBefore n b p h) : FreshlyChecked (e :: h) := by
  refine always_cons.mpr ⟨?_,hh⟩
  rintro n b p past heq hb
  obtain ⟨rfl,rfl⟩ := List.cons.inj heq
  exact he n b p rfl hb

theorem FailsUnchecked.cons {e : Event} {h : List Event} (hh : FailsUnchecked h)
    (hsent : ∀ n b p, e = .sent n b p → .left n ∉ h)
    (hland : ∀ n a, e = .landed n a → a.Unusable → .entered n ∈ h → ¬ Unsent n h) : FailsUnchecked (e :: h) := by
  rintro later n a earlier heq ha hent huns
  cases later with
  | nil =>
    obtain ⟨rfl,rfl⟩ := List.cons.inj heq
    exact absurd huns (hland n a rfl ha hent)
  | cons e' later =>
    obtain ⟨rfl,rfl⟩ := List.cons.inj heq
    obtain ⟨rest,p,rfl,hrest⟩ := hh later n a earlier rfl ha hent huns
    refine ⟨e :: rest,p,rfl,fun b q hmem => ?_⟩
    rcases List.mem_cons.mp hmem with rfl | hmem
    · exact hsent n b q rfl (by simp)
    · exact hrest b q hmem

theorem FailsUnchecked.fail {n : ℕ} {p : String} {a : Answer} {h : List Event} (hh : FailsUnchecked h) :
    FailsUnchecked ([.left n,.raised n ⟨"scrub_failed",p⟩,.landed n a] ++ h) := by
  rintro later m b earlier heq hb hent huns
  match later,heq with
  | [],heq => cases heq
  | [_],heq => cases heq
  | [_,_],heq =>
    cases heq
    exact ⟨[],p,rfl,fun _ _ => List.not_mem_nil⟩
  | _ :: _ :: _ :: later,heq =>
    simp only [List.cons_append,List.nil_append,List.cons.injEq] at heq
    obtain ⟨rfl,rfl,rfl,rfl⟩ := heq
    obtain ⟨rest,q,rfl,hrest⟩ := hh later m b earlier rfl hb hent huns
    refine ⟨[.left n,.raised n ⟨"scrub_failed",p⟩,.landed n a] ++ rest,q,rfl,hrest.append ?_⟩
    simp [Unsent]

theorem Move.safe {lock lock' : Option ℕ} {n : ℕ} {t : Task} {t' : Option Task} {events h : List Event}
    (hm : Move lock n t events t' lock') (hp : Place lock n h t) (hgone : .left n ∉ h) (hfresh : FreshlyChecked h)
    (hfails : FailsUnchecked h) : FreshlyChecked (events ++ h) ∧ FailsUnchecked (events ++ h) := by
  -- events that are neither an RPC nor a landing
  have hother : ∀ {e : Event} {past : List Event}, (∀ m b p, e ≠ .sent m b p) → (∀ m a, e ≠ .landed m a) →
      FreshlyChecked past ∧ FailsUnchecked past → FreshlyChecked (e :: past) ∧ FailsUnchecked (e :: past) := by
    intro e past hs hl hpast
    exact ⟨hpast.1.cons (fun m b p he => absurd he (hs m b p)),
      hpast.2.cons (fun m b p he => absurd he (hs m b p)) (fun m a he => absurd he (hl m a))⟩
  have hland : ∀ {a : Answer}, (a.Unusable → .entered n ∈ h → ¬ Unsent n h) →
      FreshlyChecked (.landed n a :: h) ∧ FailsUnchecked (.landed n a :: h) := by
    intro a ha
    refine ⟨hfresh.cons (fun m b p he => nomatch he),hfails.cons (fun m b p he => nomatch he) (fun m b he hb => ?_)⟩
    cases he
    exact ha hb
  cases hm with
  | request => exact hother (by simp) (by simp) ⟨hfresh,hfails⟩
  | land a => exact hland (fun _ hent => (hp.2 _ hent rfl).elim)
  | enter hb hl => exact hother (by simp) (by simp) ⟨hfresh,hfails⟩
  | run hb hl =>
    have hent := hother (e := .entered n) (by simp) (by simp) ⟨hfresh,hfails⟩
    refine ⟨hent.1.cons (fun m b p he hne => ?_),hent.2.cons (fun m b p he => ?_) (by simp)⟩
    · cases he
      exact absurd hb hne
    · cases he
      simpa using hgone
  | reread => exact hother (by simp) (by simp) ⟨hfresh,hfails⟩
  | unusable ha =>
    refine ⟨?_,hfails.fail⟩
    exact ((hfresh.cons (by simp)).cons (by simp)).cons (by simp)
  | notPossible =>
    exact hother (by simp) (by simp) (hother (by simp) (by simp) (hother (by simp) (by simp)
      (hland (fun ha => absurd ha (by simp [Answer.Unusable])))))
  | @act b p pools state hs hb =>
    have hchecked := hother (e := .checked n (some state)) (by simp) (by simp)
      (hland (a := ⟨some pools,false⟩) (fun ha => absurd ha (by simp [Answer.Unusable])))
    refine ⟨hchecked.1.cons (fun m b' p' he _ => ?_),hchecked.2.cons (fun m b' p' he => ?_) (by simp)⟩
    · cases he
      exact ⟨pools,state,hb,hs,_,rfl,_,rfl,hp.2.2.2⟩
    · cases he
      simpa using hgone
  | taken => exact ⟨hfresh,hfails⟩
  | refused => exact hother (by simp) (by simp) (hother (by simp) (by simp) ⟨hfresh,hfails⟩)
  | rereadAfter => exact hother (by simp) (by simp) ⟨hfresh,hfails⟩
  | landAfter a => exact hother (by simp) (by simp) (hland (fun _ _ => hp.2))
  | cancelInside hl => exact hother (by simp) (by simp) ⟨hfresh,hfails⟩
  | cancelOutside hl => exact ⟨hfresh,hfails⟩

theorem inv_of_reach {s : State} (hr : system.Reachable s) : Inv s := by
  refine hr.invariant (fun s hs => hs ▸ initial_inv) (fun hi _ he => ?_)
  rcases step_cases he with rfl | hstarted | hmoved
  · exact hi
  · exact hstarted.inv hi
  · exact hmoved.inv hi

/-- In every interleaving the scrub actions are sent on a state that the press itself has re-read. -/
theorem freshlyChecked_of_reach {s : State} (hr : system.Reachable s) : FreshlyChecked s.history ∧
    FailsUnchecked s.history := by
  refine System.Reach.invariant_of (I := fun s : State => FreshlyChecked s.history ∧
    FailsUnchecked s.history) inv_of_reach (fun s hs => ?_)
    (fun {s _ s'} hi _ hsafe _ he => ?_) hr
  · rw [hs]
    exact ⟨always_nil.mpr (fun _ _ _ _ h => nomatch h),fun later _ _ _ h => absurd h (by simp [initial])⟩
  · rcases step_cases he with rfl | ⟨_,_,_,hhist,_⟩ | ⟨n,t,events,t',ht,_,hhist,hmove⟩
    · exact hsafe
    · rwa [hhist]
    · rw [hhist]
      refine hmove.safe (hi.place n t ht) (fun hleft => ?_) hsafe.1 hsafe.2
      rw [hi.gone n hleft] at ht
      cases ht

/-- Pause is pressed while a push refresh is under way, and another press of stop waits. -/
theorem freshlyChecked_pause : ∃ s, system.Reachable s ∧ .sent 1 .scrubPause "tank" ∈ s.history ∧
    (FreshlyChecked s.history ∧ FailsUnchecked s.history) := by
  obtain ⟨s,hr,hsent⟩ := system.exists_reach_of_run (fun _ _ => True) (s := initial) rfl
    [.refresh,.take 0,.press .scrubPause (some "tank") (some 1),.press .scrubStop (some "tank") (some 1),.take 1,
      .answer 0 ⟨some [⟨some "tank",some "SCRUB",some "FINISHED",false⟩],false⟩,.take 1,
      .answer 1 ⟨some [⟨some "tank",some "SCRUB",some "SCANNING",false⟩],false⟩]
    (fun s => .sent 1 .scrubPause "tank" ∈ s.history) (by decide)
  exact ⟨s,hr,hsent,freshlyChecked_of_reach hr⟩

end TruenasCE.Scrub
