import Mathlib.Data.Finset.Card
import TruenasCE.Library.TaskTable
import TruenasCE.Library.Transition

/-! # Guessing the host

The setup form is filled in with the address of a common hostname. The names are looked up in a thread pool of their
own, one thread for each. A blocked lookup cannot be cancelled, so no guess submits lookups while those of an earlier
one are running. The event loop runs one guess at a time; threads run beside it between any two of its steps.
-/
namespace TruenasCE.Flow
open Library

def defaultHost : String := "truenas.local"

/-- A future of the pool; `_resolve_host` does not raise. -/
inductive Lookup
  | pending
  | running
  | finished (ip : Option String)
  | cancelled
  deriving DecidableEq

namespace Lookup

def done : Lookup → Bool
  | .finished _ => true
  | .cancelled => true
  | _ => false

/-- `not lookup.cancelled() and (ip := lookup.result())` of a lookup that is done -/
def answer : Lookup → Option String
  | .finished (some ip) => if ip = "" then none else some ip
  | _ => none

def cancel : Lookup → Lookup
  | .pending => .cancelled
  | l => l

end Lookup

/-- The lookups of a guess by number, that of the preferred name first -/
abbrev Batch := List ℕ

/-- How a guess ended. What was known is how the lookups stood when the last pass over them began. -/
inductive Ending
  | fellBack (known : ℕ → Lookup)
  | decided
  | expired (known : ℕ → Lookup)
  | cancelled
  /-- `asyncio.wait` raises if there is nothing to wait for. -/
  | failed

def Ending.host (ending : Ending) (ip : Option String) : Option String :=
  match ending with
  | .cancelled => none
  | .failed => none
  | _ => some (ip.getD defaultHost)

structure Guess where
  lookups : Batch
  ending : Ending
  host : Option String

/-- Where a guess is; `rest` is what is left of a pass over the lookups. -/
inductive Phase
  /-- `any(not lookup.done() for lookup in _host_guess.lookups)` -/
  | checking (rest : Batch)
  /-- `_pick_answer(_host_guess.lookups, settle=True)` -/
  | falling (rest : Batch) (known : ℕ → Lookup)
  /-- The head of the loop of `_async_wait_for_answer` -/
  | looping (lookups : Batch)
  /-- `_pick_answer(lookups, settle=False)` -/
  | deciding (lookups rest : Batch)
  /-- `await asyncio.wait` of the waiters that are not done -/
  | waiting (lookups waiters : Batch)
  /-- `_pick_answer(lookups, settle=True)` -/
  | settling (lookups rest : Batch) (known : ℕ → Lookup)
  /-- Behind the loop the lookups that are not done are cancelled. -/
  | cleaning (lookups rest : Batch) (ending : Ending) (ip : Option String)

def Phase.isWaiting : Phase → Bool
  | .waiting _ _ => true
  | _ => false

structure HostGuess where
  /-- The number of lookups that have been submitted; all others are pending. -/
  submitted : ℕ := 0
  lookup : ℕ → Lookup := fun _ => .pending
  queue : List ℕ := []
  /-- The waiter of the lookup is done. -/
  woken : ℕ → Bool := fun _ => false
  latest : Batch := []
  tasks : TaskTable Phase := .empty
  active : Option ℕ := none
  guesses : List Guess := []

namespace HostGuess

inductive Event
  | start
  | advance (expired : Bool)
  | take
  | finish (i : ℕ) (ip : Option String)
  | callBack (i : ℕ)
  | wake (n : ℕ) (timedOut : Bool)
  | cancel (n : ℕ)

variable (S : HostGuess) (n : ℕ)

def busy : ℕ := ((Finset.range S.submitted).filter (fun i => S.lookup i = .running)).card

def goOn (phase : Phase) : HostGuess := { S with tasks := S.tasks.set n (some phase) }

def suspend (phase : Phase) : HostGuess := { S with tasks := S.tasks.set n (some phase), active := none }

def finished (guess : Guess) : HostGuess :=
  { S with tasks := S.tasks.set n none, active := none, guesses := guess :: S.guesses }

def fresh (candidates : ℕ) : Batch := List.range' S.submitted candidates

def submit (candidates : ℕ) : HostGuess :=
  { S with
    submitted := S.submitted + candidates
    queue := S.queue ++ S.fresh candidates
    latest := S.fresh candidates }

def advance (candidates : ℕ) (expired : Bool) : Phase → Option HostGuess
  | .checking (i :: rest) =>
    if (S.lookup i).done then some (S.goOn n (.checking rest)) else some (S.goOn n (.falling S.latest S.lookup))
  | .checking [] => some ((S.submit candidates).goOn n (.looping (S.fresh candidates)))
  | .falling (i :: rest) known =>
    match (S.lookup i).answer with
    | some ip => some (S.finished n ⟨S.latest,.fellBack known,some ip⟩)
    | none => some (S.goOn n (.falling rest known))
  | .falling [] known => some (S.finished n ⟨S.latest,.fellBack known,some defaultHost⟩)
  | .looping lookups =>
    if expired then some (S.goOn n (.settling lookups lookups S.lookup))
    else some (S.goOn n (.deciding lookups lookups))
  | .deciding lookups (i :: rest) =>
    if (S.lookup i).done then
      match (S.lookup i).answer with
      | some ip => some (S.goOn n (.cleaning lookups lookups .decided (some ip)))
      | none => some (S.goOn n (.deciding lookups rest))
    else
      let waiters := lookups.filter (fun i => !S.woken i)
      if waiters = [] then some (S.goOn n (.cleaning lookups lookups .failed none))
      else some (S.suspend n (.waiting lookups waiters))
  | .deciding lookups [] => some (S.goOn n (.cleaning lookups lookups .decided none))
  | .settling lookups (i :: rest) known =>
    match (S.lookup i).answer with
    | some ip => some (S.goOn n (.cleaning lookups lookups (.expired known) (some ip)))
    | none => some (S.goOn n (.settling lookups rest known))
  | .settling lookups [] known => some (S.goOn n (.cleaning lookups lookups (.expired known) none))
  | .cleaning lookups (i :: rest) ending ip =>
    some { S.goOn n (.cleaning lookups rest ending ip) with
      lookup := Function.update S.lookup i (S.lookup i).cancel }
  | .cleaning lookups [] ending ip => some (S.finished n ⟨lookups,ending,ending.host ip⟩)
  | .waiting _ _ => none

def step (candidates : ℕ) (S : HostGuess) : Event → Option HostGuess
  | .start =>
    if S.active = none then
      some { S with tasks := S.tasks.spawn (.checking S.latest), active := some S.tasks.next }
    else none
  | .advance expired => do
    let n ← S.active
    S.advance n candidates expired (← S.tasks.get n)
  | .take =>
    match S.queue with
    | [] => none
    | i :: rest =>
      if S.busy < candidates then
        -- a lookup that was cancelled in the queue is dropped
        some { S with
          queue := rest
          lookup := if S.lookup i = .pending then Function.update S.lookup i .running else S.lookup }
      else none
  | .finish i ip =>
    if S.lookup i = .running then some { S with lookup := Function.update S.lookup i (.finished ip) } else none
  | .callBack i =>
    if S.active = none ∧ (S.lookup i).done then some { S with woken := Function.update S.woken i true } else none
  | .wake n timedOut =>
    match S.active, S.tasks.get n with
    | none, some (.waiting lookups waiters) =>
      if timedOut || waiters.any S.woken then some { S.goOn n (.looping lookups) with active := some n } else none
    | _, _ => none
  | .cancel n =>
    match S.active, S.tasks.get n with
    | none, some (.waiting lookups _) =>
      some { S.goOn n (.cleaning lookups lookups .cancelled none) with active := some n }
    | _, _ => none

def system (candidates : ℕ) : System HostGuess Event where
  init S := S = {}
  step := step candidates

/-- From one moment to a later one: what is done stays as it is, and nothing becomes pending. -/
def Keeps (f g : ℕ → Lookup) : Prop := ∀ i, ((f i).done = true → g i = f i) ∧ (f i ≠ .pending → g i ≠ .pending)

theorem Keeps.refl (f : ℕ → Lookup) : Keeps f f := fun _ => ⟨fun _ => rfl,id⟩

theorem Keeps.trans {f g h : ℕ → Lookup} (hfg : Keeps f g) (hgh : Keeps g h) : Keeps f h := by
  intro i
  refine ⟨fun hi => ?_,fun hi => (hgh i).2 ((hfg i).2 hi)⟩
  have hg := (hfg i).1 hi
  rw [← hg] at hi
  exact ((hgh i).1 hi).trans hg

theorem keeps_update {f : ℕ → Lookup} {i : ℕ} {l : Lookup} (hdone : (f i).done = false) (hl : l ≠ .pending) :
    Keeps f (Function.update f i l) := by
  intro j
  by_cases hj : j = i
  · subst hj
    simp [hdone,hl]
  · simp [hj]

theorem Keeps.done {f g : ℕ → Lookup} (h : Keeps f g) {i : ℕ} (hi : (f i).done = true) : (g i).done = true := by
  rw [(h i).1 hi]
  exact hi

theorem Keeps.answer {f g : ℕ → Lookup} (h : Keeps f g) {i : ℕ} {ip : String} (hi : (f i).answer = some ip) :
    (g i).answer = some ip := by
  have hdone : (f i).done = true := by
    cases hf : f i with
    | finished _ => rfl
    | cancelled => rfl
    | pending => simp [hf,Lookup.answer] at hi
    | running => simp [hf,Lookup.answer] at hi
  rw [(h i).1 hdone]
  exact hi

theorem cancel_keeps (f : ℕ → Lookup) (i : ℕ) : Keeps f (Function.update f i (f i).cancel) := by
  cases hi : f i with
  | pending => exact keeps_update (by rw [hi]; rfl) (by simp [Lookup.cancel])
  | running | finished | cancelled =>
    have hsame : Function.update f i (f i).cancel = f := by
      rw [hi]
      exact Function.update_eq_self_iff.mpr (by simp [Lookup.cancel,hi])
    rw [← hi,hsame]
    exact Keeps.refl f

/-- The answer is that of a lookup behind others that had no answer, or no lookup had one. -/
def Best (known lookup : ℕ → Lookup) (lookups : Batch) : Option String → Prop
  | some ip => ∃ pre i post, lookups = pre ++ i :: post ∧ (∀ j ∈ pre, (known j).answer = none) ∧
      (lookup i).answer = some ip
  | none => ∀ j ∈ lookups, (known j).answer = none

/-- As `Best`, and all lookups that could have had a better answer were done. -/
def Final (lookup : ℕ → Lookup) (lookups : Batch) : Option String → Prop
  | some ip => ∃ pre i post, lookups = pre ++ i :: post ∧ (∀ j ∈ pre, (lookup j).done = true ∧ (lookup j).answer = none) ∧
      (lookup i).answer = some ip
  | none => ∀ j ∈ lookups, (lookup j).done = true ∧ (lookup j).answer = none

theorem Best.keeps {known f g : ℕ → Lookup} {lookups : Batch} {ip : Option String} (h : Best known f lookups ip)
    (hk : Keeps f g) : Best known g lookups ip := by
  cases ip with
  | none => exact h
  | some ip =>
    obtain ⟨pre,i,post,heq,hpre,hi⟩ := h
    exact ⟨pre,i,post,heq,hpre,hk.answer hi⟩

theorem Final.keeps {f g : ℕ → Lookup} {lookups : Batch} {ip : Option String} (h : Final f lookups ip)
    (hk : Keeps f g) : Final g lookups ip := by
  have hold : ∀ {j}, (f j).done = true ∧ (f j).answer = none → (g j).done = true ∧ (g j).answer = none := by
    rintro j ⟨hdone,hanswer⟩
    rw [(hk j).1 hdone]
    exact ⟨hdone,hanswer⟩
  cases ip with
  | none => exact fun j hj => hold (h j hj)
  | some ip =>
    obtain ⟨pre,i,post,heq,hpre,hi⟩ := h
    exact ⟨pre,i,post,heq,fun j hj => hold (hpre j hj),hk.answer hi⟩

theorem Final.eq_findSome {f : ℕ → Lookup} {lookups : Batch} {ip : Option String} (h : Final f lookups ip) :
    lookups.findSome? (fun i => (f i).answer) = ip := by
  cases ip with
  | none => exact List.findSome?_eq_none_iff.mpr (fun j hj => (h j hj).2)
  | some ip =>
    obtain ⟨pre,i,post,rfl,hpre,hi⟩ := h
    have hnone : pre.findSome? (fun i => (f i).answer) = none :=
      List.findSome?_eq_none_iff.mpr (fun j hj => (hpre j hj).2)
    simp [List.findSome?_append,hnone,hi]

def Answered (lookup : ℕ → Lookup) (lookups : Batch) (ip : Option String) : Ending → Prop
  | .fellBack known => Best known lookup lookups ip
  | .decided => Final lookup lookups ip
  | .expired known => Best known lookup lookups ip
  | .cancelled => True
  | .failed => False

theorem Answered.keeps {f g : ℕ → Lookup} {lookups : Batch} {ip : Option String} {ending : Ending}
    (h : Answered f lookups ip ending) (hk : Keeps f g) : Answered g lookups ip ending := by
  cases ending with
  | fellBack known => exact Best.keeps h hk
  | decided => exact Final.keeps h hk
  | expired known => exact Best.keeps h hk
  | cancelled => trivial
  | failed => exact h

def Fits (lookup : ℕ → Lookup) (latest : Batch) : Phase → Prop
  | .checking rest => ∃ pre, latest = pre ++ rest ∧ ∀ i ∈ pre, (lookup i).done = true
  | .falling rest known => Keeps known lookup ∧ ∃ pre, latest = pre ++ rest ∧ ∀ i ∈ pre, (known i).answer = none
  | .looping _ => True
  | .deciding lookups rest =>
    ∃ pre, lookups = pre ++ rest ∧ ∀ i ∈ pre, (lookup i).done = true ∧ (lookup i).answer = none
  | .waiting _ waiters => waiters ≠ []
  | .settling lookups rest known =>
    Keeps known lookup ∧ ∃ pre, lookups = pre ++ rest ∧ ∀ i ∈ pre, (known i).answer = none
  | .cleaning lookups rest ending ip =>
    Answered lookup lookups ip ending ∧ ∃ pre, lookups = pre ++ rest ∧ ∀ i ∈ pre, lookup i ≠ .pending

theorem Fits.keeps {f g : ℕ → Lookup} {latest : Batch} {phase : Phase} (h : Fits f latest phase) (hk : Keeps f g) :
    Fits g latest phase := by
  cases phase with
  | checking rest =>
    obtain ⟨pre,heq,hpre⟩ := h
    exact ⟨pre,heq,fun i hi => hk.done (hpre i hi)⟩
  | falling rest known => exact ⟨h.1.trans hk,h.2⟩
  | looping lookups => trivial
  | deciding lookups rest =>
    obtain ⟨pre,heq,hpre⟩ := h
    refine ⟨pre,heq,fun i hi => ?_⟩
    rw [(hk i).1 (hpre i hi).1]
    exact hpre i hi
  | waiting lookups waiters => exact h
  | settling lookups rest known => exact ⟨h.1.trans hk,h.2⟩
  | cleaning lookups rest ending ip =>
    obtain ⟨ha,pre,heq,hpre⟩ := h
    exact ⟨ha.keeps hk,pre,heq,fun i hi => (hk i).2 (hpre i hi)⟩

def Ended (lookup : ℕ → Lookup) (guess : Guess) : Prop :=
  (∃ ip, Answered lookup guess.lookups ip guess.ending ∧ guess.host = guess.ending.host ip) ∧
    ((∀ known, guess.ending ≠ .fellBack known) → ∀ i ∈ guess.lookups, lookup i ≠ .pending)

theorem Ended.keeps {f g : ℕ → Lookup} {guess : Guess} (h : Ended f guess) (hk : Keeps f g) : Ended g guess := by
  obtain ⟨⟨ip,ha,hhost⟩,hpending⟩ := h
  exact ⟨⟨ip,ha.keeps hk,hhost⟩,fun hne i hi => (hk i).2 (hpending hne i hi)⟩

structure Inv (candidates : ℕ) (S : HostGuess) : Prop where
  single : ∀ i, i < S.submitted → (S.lookup i).done = false → i ∈ S.latest
  bound : S.latest.length ≤ candidates
  queued : ∀ i, i < S.submitted → S.lookup i = .pending → i ∈ S.queue
  woken : ∀ i, S.woken i = true → (S.lookup i).done = true
  fits : ∀ {n phase}, S.tasks.get n = some phase → Fits S.lookup S.latest phase
  alone : ∀ {n phase}, S.tasks.get n = some phase → phase.isWaiting = true ∨ S.active = some n
  ended : ∀ guess ∈ S.guesses, Ended S.lookup guess

variable {candidates : ℕ} {S : HostGuess} {n : ℕ}

theorem Inv.goOn (h : Inv candidates S) (hactive : S.active = some n) {phase : Phase}
    (hfits : Fits S.lookup S.latest phase) : Inv candidates (S.goOn n phase) where
  single := h.single
  bound := h.bound
  queued := h.queued
  woken := h.woken
  fits hget := by
    rcases TaskTable.get_set_cases hget with ⟨-,hnew⟩ | ⟨-,hold⟩
    · cases hnew
      exact hfits
    · exact h.fits hold
  alone hget := by
    rcases TaskTable.get_set_cases hget with ⟨rfl,-⟩ | ⟨-,hold⟩
    · exact Or.inr hactive
    · exact h.alone hold
  ended := h.ended

theorem Inv.suspend (h : Inv candidates S) (hactive : S.active = some n) {phase : Phase} (hphase : phase.isWaiting = true)
    (hfits : Fits S.lookup S.latest phase) : Inv candidates (S.suspend n phase) where
  single := h.single
  bound := h.bound
  queued := h.queued
  woken := h.woken
  fits hget := by
    rcases TaskTable.get_set_cases hget with ⟨-,hnew⟩ | ⟨-,hold⟩
    · cases hnew
      exact hfits
    · exact h.fits hold
  alone hget := by
    rcases TaskTable.get_set_cases hget with ⟨-,hnew⟩ | ⟨hne,hold⟩
    · cases hnew
      exact Or.inl hphase
    · refine Or.inl ((h.alone hold).resolve_right (fun hm => hne ?_))
      exact (Option.some.inj (hactive.symm.trans hm)).symm
  ended := h.ended

theorem Inv.finished (h : Inv candidates S) (hactive : S.active = some n) {guess : Guess}
    (hguess : Ended S.lookup guess) : Inv candidates (S.finished n guess) where
  single := h.single
  bound := h.bound
  queued := h.queued
  woken := h.woken
  fits hget := by
    rcases TaskTable.get_set_cases hget with ⟨-,hnew⟩ | ⟨-,hold⟩
    · cases hnew
    · exact h.fits hold
  alone hget := by
    rcases TaskTable.get_set_cases hget with ⟨-,hnew⟩ | ⟨hne,hold⟩
    · cases hnew
    · refine Or.inl ((h.alone hold).resolve_right (fun hm => hne ?_))
      exact (Option.some.inj (hactive.symm.trans hm)).symm
  ended guess' hmem := by
    rcases List.mem_cons.mp hmem with rfl | hmem
    · exact hguess
    · exact h.ended guess' hmem

theorem Inv.lookups (h : Inv candidates S) {f : ℕ → Lookup} {queue : List ℕ} (hk : Keeps S.lookup f)
    (hqueue : ∀ i, i < S.submitted → f i = .pending → i ∈ queue) :
    Inv candidates { S with lookup := f, queue := queue } where
  single i hi hdone := by
    apply h.single i hi
    by_contra hold
    rw [Bool.not_eq_false] at hold
    have hnew := hk.done hold
    simp only [hdone] at hnew
    cases hnew
  bound := h.bound
  queued := hqueue
  woken i hi := hk.done (h.woken i hi)
  fits hget := (h.fits hget).keeps hk
  alone hget := h.alone hget
  ended guess hmem := (h.ended guess hmem).keeps hk

theorem Inv.wake (h : Inv candidates S) (hidle : S.active = none) {phase : Phase}
    (hfits : Fits S.lookup S.latest phase) : Inv candidates { S.goOn n phase with active := some n } where
  single := h.single
  bound := h.bound
  queued := h.queued
  woken := h.woken
  fits hget := by
    rcases TaskTable.get_set_cases hget with ⟨-,hnew⟩ | ⟨-,hold⟩
    · cases hnew
      exact hfits
    · exact h.fits hold
  alone hget := by
    rcases TaskTable.get_set_cases hget with ⟨rfl,-⟩ | ⟨-,hold⟩
    · exact Or.inr rfl
    · refine Or.inl ((h.alone hold).resolve_right (fun hm => ?_))
      rw [hidle] at hm
      cases hm
  ended := h.ended

/-- No lookup of an earlier guess is running when new ones are submitted. -/
theorem Inv.submit (h : Inv candidates S) (hactive : S.active = some n)
    (hdone : ∀ i ∈ S.latest, (S.lookup i).done = true) :
    Inv candidates ((S.submit candidates).goOn n (.looping (S.fresh candidates))) where
  single i hi hi' := by
    simp only [HostGuess.goOn,HostGuess.submit] at hi hi' ⊢
    by_cases hold : i < S.submitted
    · have hmem := hdone i (h.single i hold hi')
      rw [hi'] at hmem
      cases hmem
    · exact List.mem_range'_1.mpr ⟨by omega,by omega⟩
  bound := by simp [HostGuess.goOn,HostGuess.submit,fresh]
  queued i hi hpending := by
    simp only [HostGuess.goOn,HostGuess.submit] at hi hpending ⊢
    by_cases hold : i < S.submitted
    · exact List.mem_append_left _ (h.queued i hold hpending)
    · exact List.mem_append_right _ (List.mem_range'_1.mpr ⟨by omega,by omega⟩)
  woken := h.woken
  fits hget := by
    rcases TaskTable.get_set_cases hget with ⟨-,hnew⟩ | ⟨hne,hold⟩
    · cases hnew
      trivial
    · -- the other guesses wait, and do not look at the latest lookups
      have hwait := (h.alone hold).resolve_right (fun hm => hne (Option.some.inj (hactive.symm.trans hm)).symm)
      rename_i phase
      cases phase with
      | waiting lookups waiters => exact h.fits hold
      | checking | falling | looping | deciding | settling | cleaning => cases hwait
  alone hget := by
    rcases TaskTable.get_set_cases hget with ⟨rfl,-⟩ | ⟨-,hold⟩
    · exact Or.inr hactive
    · exact h.alone hold
  ended := h.ended

theorem answer_of_keeps {known lookup : ℕ → Lookup} (hk : Keeps known lookup) {i : ℕ}
    (hi : (lookup i).answer = none) : (known i).answer = none := by
  cases hknown : (known i).answer with
  | none => rfl
  | some ip =>
    rw [hk.answer hknown] at hi
    cases hi

theorem exists_snoc {p : ℕ → Prop} {lookups rest : Batch} {i : ℕ}
    (h : ∃ pre, lookups = pre ++ i :: rest ∧ ∀ j ∈ pre, p j) (hi : p i) :
    ∃ pre, lookups = pre ++ rest ∧ ∀ j ∈ pre, p j := by
  obtain ⟨pre,heq,hpre⟩ := h
  refine ⟨pre ++ [i],by simp [heq],fun j hj => ?_⟩
  rcases List.mem_append.mp hj with hj | hj
  · exact hpre j hj
  · rw [List.mem_singleton.mp hj]
    exact hi

theorem Inv.advance (h : Inv candidates S) (hactive : S.active = some n) {phase : Phase}
    (hget : S.tasks.get n = some phase) {expired : Bool} {S' : HostGuess}
    (hstep : S.advance n candidates expired phase = some S') : Inv candidates S' := by
  have hfits := h.fits hget
  cases phase with
  | checking rest =>
    cases rest with
    | nil =>
      obtain ⟨pre,heq,hpre⟩ := hfits
      cases hstep
      exact h.submit hactive (fun i hi => hpre i (by simpa [heq] using hi))
    | cons i rest =>
      simp only [HostGuess.advance] at hstep
      split at hstep
      · cases hstep
        exact h.goOn hactive (exists_snoc hfits ‹_›)
      · cases hstep
        exact h.goOn hactive ⟨Keeps.refl _,[],rfl,fun _ hj => by cases hj⟩
  | falling rest known =>
    obtain ⟨hk,hrest⟩ := hfits
    cases rest with
    | nil =>
      obtain ⟨pre,heq,hpre⟩ := hrest
      cases hstep
      refine h.finished hactive ⟨⟨none,?_,rfl⟩,fun hne => absurd rfl (hne known)⟩
      exact fun j hj => hpre j (by simpa [heq] using hj)
    | cons i rest =>
      simp only [HostGuess.advance] at hstep
      split at hstep
      · rename_i ip hip
        obtain ⟨pre,heq,hpre⟩ := hrest
        cases hstep
        exact h.finished hactive ⟨⟨some ip,⟨pre,i,rest,heq,hpre,hip⟩,rfl⟩,fun hne => absurd rfl (hne known)⟩
      · cases hstep
        exact h.goOn hactive ⟨hk,exists_snoc hrest (answer_of_keeps hk ‹_›)⟩
  | looping lookups =>
    simp only [HostGuess.advance] at hstep
    split at hstep
    · cases hstep
      exact h.goOn hactive ⟨Keeps.refl _,[],rfl,fun _ hj => by cases hj⟩
    · cases hstep
      exact h.goOn hactive ⟨[],rfl,fun _ hj => by cases hj⟩
  | deciding lookups rest =>
    have hclean : ∀ ip, Final S.lookup lookups ip →
        Inv candidates (S.goOn n (.cleaning lookups lookups .decided ip)) :=
      fun ip ha => h.goOn hactive ⟨ha,[],rfl,fun _ hj => by cases hj⟩
    cases rest with
    | nil =>
      obtain ⟨pre,heq,hpre⟩ := hfits
      cases hstep
      exact hclean none (fun j hj => hpre j (by simpa [heq] using hj))
    | cons i rest =>
      simp only [HostGuess.advance] at hstep
      split at hstep
      · rename_i hdone
        split at hstep
        · rename_i ip hip
          obtain ⟨pre,heq,hpre⟩ := hfits
          cases hstep
          exact hclean (some ip) ⟨pre,i,rest,heq,hpre,hip⟩
        · cases hstep
          exact h.goOn hactive (exists_snoc hfits ⟨hdone,‹_›⟩)
      · rename_i hdone
        -- the waiter of a lookup that was not done is not done
        have hmem : i ∈ lookups.filter (fun i => !S.woken i) := by
          obtain ⟨pre,rfl,-⟩ := hfits
          refine List.mem_filter.mpr ⟨by simp,?_⟩
          cases hw : S.woken i with
          | false => rfl
          | true => exact absurd (h.woken i hw) hdone
        have hne : lookups.filter (fun i => !S.woken i) ≠ [] := List.ne_nil_of_mem hmem
        rw [if_neg hne] at hstep
        cases hstep
        exact h.suspend hactive rfl hne
  | waiting lookups waiters => cases hstep
  | settling lookups rest known =>
    obtain ⟨hk,hrest⟩ := hfits
    have hclean : ∀ ip, Best known S.lookup lookups ip →
        Inv candidates (S.goOn n (.cleaning lookups lookups (.expired known) ip)) :=
      fun ip ha => h.goOn hactive ⟨ha,[],rfl,fun _ hj => by cases hj⟩
    cases rest with
    | nil =>
      obtain ⟨pre,heq,hpre⟩ := hrest
      cases hstep
      exact hclean none (fun j hj => hpre j (by simpa [heq] using hj))
    | cons i rest =>
      simp only [HostGuess.advance] at hstep
      split at hstep
      · rename_i ip hip
        obtain ⟨pre,heq,hpre⟩ := hrest
        cases hstep
        exact hclean (some ip) ⟨pre,i,rest,heq,hpre,hip⟩
      · cases hstep
        exact h.goOn hactive ⟨hk,exists_snoc hrest (answer_of_keeps hk ‹_›)⟩
  | cleaning lookups rest ending ip =>
    obtain ⟨ha,hrest⟩ := hfits
    cases rest with
    | nil =>
      obtain ⟨pre,heq,hpre⟩ := hrest
      cases hstep
      exact h.finished hactive ⟨⟨ip,ha,rfl⟩,fun _ i hi => hpre i (by simpa [heq] using hi)⟩
    | cons i rest =>
      have hk := cancel_keeps S.lookup i
      have hcancelled : (Function.update S.lookup i (S.lookup i).cancel) i ≠ .pending := by
        rw [Function.update_self]
        cases S.lookup i <;> simp [Lookup.cancel]
      have hqueue : ∀ j, j < S.submitted → (Function.update S.lookup i (S.lookup i).cancel) j = .pending → j ∈ S.queue := by
        intro j hj hpending
        apply h.queued j hj
        by_contra hold
        exact (hk j).2 hold hpending
      cases hstep
      have hkept : ∃ pre, lookups = pre ++ i :: rest ∧
          ∀ j ∈ pre, (Function.update S.lookup i (S.lookup i).cancel) j ≠ .pending := by
        obtain ⟨pre,heq,hpre⟩ := hrest
        exact ⟨pre,heq,fun j hj => (hk j).2 (hpre j hj)⟩
      exact (h.lookups hk hqueue).goOn hactive ⟨ha.keeps hk,exists_snoc hkept hcancelled⟩

theorem Inv.step (h : Inv candidates S) {event : Event} {S' : HostGuess} (hstep : step candidates S event = some S') :
    Inv candidates S' := by
  cases event with
  | start =>
    simp only [HostGuess.step] at hstep
    split at hstep
    · rename_i hidle
      cases hstep
      exact
        { single := h.single
          bound := h.bound
          queued := h.queued
          woken := h.woken
          fits := fun hget => by
            rcases TaskTable.get_spawn_cases hget with ⟨-,rfl⟩ | hold
            · exact ⟨[],rfl,fun _ hj => by cases hj⟩
            · exact h.fits hold
          alone := fun hget => by
            rcases TaskTable.get_spawn_cases hget with ⟨rfl,-⟩ | hold
            · exact Or.inr rfl
            · refine Or.inl ((h.alone hold).resolve_right (fun hm => ?_))
              rw [hidle] at hm
              cases hm
          ended := h.ended }
    · cases hstep
  | advance expired =>
    obtain ⟨n,hactive,hstep⟩ := Option.bind_eq_some_iff.mp hstep
    obtain ⟨phase,hget,hstep⟩ := Option.bind_eq_some_iff.mp hstep
    exact h.advance hactive hget hstep
  | take =>
    simp only [HostGuess.step] at hstep
    split at hstep
    · cases hstep
    · rename_i i rest hq
      split at hstep
      · cases hstep
        have hqueue : ∀ j, j < S.submitted → S.lookup j = .pending → j = i ∨ j ∈ rest := by
          intro j hj hpending
          have hmem := h.queued j hj hpending
          rw [hq] at hmem
          exact List.mem_cons.mp hmem
        split
        · rename_i hi
          refine h.lookups (keeps_update (by rw [hi]; rfl) (by simp)) (fun j hj hpending => ?_)
          by_cases hji : j = i
          · subst hji
            simp at hpending
          · rw [Function.update_of_ne hji] at hpending
            exact (hqueue j hj hpending).resolve_left hji
        · rename_i hi
          refine h.lookups (Keeps.refl _) (fun j hj hpending => (hqueue j hj hpending).resolve_left ?_)
          rintro rfl
          exact hi hpending
      · cases hstep
  | finish i ip =>
    simp only [HostGuess.step] at hstep
    split at hstep
    · rename_i hi
      cases hstep
      refine h.lookups (keeps_update (by rw [hi]; rfl) (by simp)) (fun j hj hpending => ?_)
      by_cases hji : j = i
      · subst hji
        simp at hpending
      · rw [Function.update_of_ne hji] at hpending
        exact h.queued j hj hpending
    · cases hstep
  | callBack i =>
    simp only [HostGuess.step] at hstep
    split at hstep
    · rename_i hi
      cases hstep
      refine { h with woken := fun j hj => ?_ }
      by_cases hji : j = i
      · rw [hji]
        exact hi.2
      · have hold : S.woken j = true := by simpa [Function.update_of_ne hji] using hj
        exact h.woken j hold
    · cases hstep
  | wake n timedOut =>
    simp only [HostGuess.step] at hstep
    split at hstep
    · rename_i hidle hget
      split at hstep
      · cases hstep
        exact h.wake hidle trivial
      · cases hstep
    · cases hstep
  | cancel n =>
    simp only [HostGuess.step] at hstep
    split at hstep
    · cases hstep
      exact h.wake ‹_› ⟨trivial,[],rfl,fun _ hj => by cases hj⟩
    · cases hstep

theorem inv_initial (candidates : ℕ) : Inv candidates {} where
  single i hi := by cases hi
  bound := Nat.zero_le _
  queued i hi := by cases hi
  woken i hi := by cases hi
  fits hget := by simp at hget
  alone hget := by simp at hget
  ended guess hmem := by cases hmem

theorem inv_of_reachable (hr : (system candidates).Reachable S) : Inv candidates S := by
  refine hr.invariant ?_ (fun h _ hstep => h.step hstep)
  rintro S rfl
  exact inv_initial candidates

theorem Inv.undone_le (h : Inv candidates S) :
    ((Finset.range S.submitted).filter (fun i => (S.lookup i).done = false)).card ≤ candidates := by
  have hsub : (Finset.range S.submitted).filter (fun i => (S.lookup i).done = false) ⊆ S.latest.toFinset := by
    intro i hi
    rw [Finset.mem_filter,Finset.mem_range] at hi
    exact List.mem_toFinset.mpr (h.single i hi.1 hi.2)
  calc ((Finset.range S.submitted).filter (fun i => (S.lookup i).done = false)).card
      ≤ S.latest.toFinset.card := Finset.card_le_card hsub
    _ ≤ S.latest.length := List.toFinset_card_le _
    _ ≤ candidates := h.bound

/-- A lookup that waits in the queue never waits for a blocked one: a thread is free for it. -/
theorem Inv.busy_lt (h : Inv candidates S) {i : ℕ} (hi : i < S.submitted) (hpending : S.lookup i = .pending) :
    S.busy < candidates := by
  have hsub : (Finset.range S.submitted).filter (fun i => S.lookup i = .running) ⊂
      (Finset.range S.submitted).filter (fun i => (S.lookup i).done = false) := by
    refine Finset.ssubset_iff_subset_ne.mpr ⟨fun j hj => ?_,fun heq => ?_⟩
    · rw [Finset.mem_filter] at hj ⊢
      exact ⟨hj.1,by rw [hj.2]; rfl⟩
    · have hmem : i ∈ (Finset.range S.submitted).filter (fun i => (S.lookup i).done = false) :=
        Finset.mem_filter.mpr ⟨Finset.mem_range.mpr hi,by rw [hpending]; rfl⟩
      rw [← heq,Finset.mem_filter,hpending] at hmem
      cases hmem.2
  exact (Finset.card_lt_card hsub).trans_le h.undone_le

/-- Of two names the second one answers in time and the first one never does; the next guess falls back to the answer. -/
def stalledName : List Event :=
  [.start,.advance false,.take,.take,.advance false,.advance false,.finish 1 (some "192.168.1.5"),.callBack 1,.wake 0 false,
    .advance true,.advance true,.advance true,.advance true,.advance true,.advance true,
    .start,.advance true,.advance true,.advance true]

theorem run_stalledName : ∃ S known known', (system 2).run (fun _ _ => True) {} stalledName = some S ∧
    S.guesses = [⟨[0,1],.fellBack known',some "192.168.1.5"⟩,⟨[0,1],.expired known,some "192.168.1.5"⟩] ∧
    S.lookup 0 = .running ∧ S.submitted = 2 := ⟨_,_,_,rfl,rfl,rfl,rfl⟩

/-- Guesses never pile up in the pool: all lookups that are not done are of the latest guess, a thread is free for each
that waits, and none of a guess that has ended waits. -/
theorem pool_of_reachable (hr : (system candidates).Reachable S) :
    (∀ i, i < S.submitted → (S.lookup i).done = false → i ∈ S.latest) ∧ S.latest.length ≤ candidates ∧
      (∀ i, i < S.submitted → S.lookup i = .pending → i ∈ S.queue ∧ S.busy < candidates) ∧
      ∀ guess ∈ S.guesses, (∀ known, guess.ending ≠ .fellBack known) → ∀ i ∈ guess.lookups, S.lookup i ≠ .pending := by
  have h := inv_of_reachable hr
  exact ⟨h.single,h.bound,fun i hi hpending => ⟨h.queued i hi hpending,h.busy_lt hi hpending⟩,
    fun guess hmem => (h.ended guess hmem).2⟩

theorem pool_of_stalledName : ∃ S, (system 2).Reachable S ∧ S.lookup 0 = .running ∧ 0 ∈ S.latest := by
  obtain ⟨S,known,known',hrun,-,hrunning,hsubmitted⟩ := run_stalledName
  have hr : (system 2).Reachable S := (System.Reach.init rfl).run hrun
  have hpool := (pool_of_reachable hr).1 0 (by rw [hsubmitted]; decide) (by rw [hrunning]; rfl)
  exact ⟨S,hr,hrunning,hpool⟩

/-- A guess decided early has the answer of the most preferred name that ever answers; at the end of its time, or beside
an earlier guess, it has an answer at least as preferred as all that were known by then. -/
theorem answer_of_reachable (hr : (system candidates).Reachable S) {guess : Guess} (hmem : guess ∈ S.guesses) :
    match guess.ending with
    | .decided => guess.host = some ((guess.lookups.findSome? (fun i => (S.lookup i).answer)).getD defaultHost)
    | .fellBack known => ∃ ip, guess.host = some (ip.getD defaultHost) ∧ Best known S.lookup guess.lookups ip
    | .expired known => ∃ ip, guess.host = some (ip.getD defaultHost) ∧ Best known S.lookup guess.lookups ip
    | .cancelled => guess.host = none
    | .failed => False := by
  obtain ⟨lookups,ending,host⟩ := guess
  obtain ⟨⟨ip,ha,hhost⟩,-⟩ := (inv_of_reachable hr).ended _ hmem
  cases ending with
  | decided =>
    have hfinal : Final S.lookup lookups ip := ha
    change host = some ((lookups.findSome? (fun i => (S.lookup i).answer)).getD defaultHost)
    rw [hfinal.eq_findSome]
    exact hhost
  | fellBack known => exact ⟨ip,hhost,ha⟩
  | expired known => exact ⟨ip,hhost,ha⟩
  | cancelled => exact hhost
  | failed => exact ha

theorem answer_of_stalledName : ∃ S known, (system 2).Reachable S ∧ Best known S.lookup [0,1] (some "192.168.1.5") := by
  obtain ⟨S,known,known',hrun,hguesses,-⟩ := run_stalledName
  have hr : (system 2).Reachable S := (System.Reach.init rfl).run hrun
  have hmem : ⟨[0,1],.fellBack known',some "192.168.1.5"⟩ ∈ S.guesses := by simp [hguesses]
  obtain ⟨ip,hhost,hbest⟩ := answer_of_reachable hr hmem
  cases ip with
  | none => simp [defaultHost] at hhost
  | some ip =>
    cases hhost
    exact ⟨S,known',hr,hbest⟩

end HostGuess
end TruenasCE.Flow
