import Mathlib.Logic.Basic
import Mathlib.Data.Option.Basic

/-! # Partial transition systems and guarded reachability

A system steps by labelled partial functions. Reachability is relative to a
condition on the steps taken, so that one induction rule serves both the
unconditional invariants and those that hold along the runs whose every step
meets a stated condition.
-/
namespace TruenasCE.Library
variable {σ α : Type*}

structure System (σ α : Type*) where
  init : σ → Prop
  step : σ → α → Option σ

namespace System
variable (M : System σ α)

/-- Execute the labels in order; the run fails at a step that is unavailable or that
does not satisfy `ok`. -/
def run (ok : σ → α → Prop) [∀ s a, Decidable (ok s a)] : σ → List α → Option σ
  | s, [] => some s
  | s, a :: rest => if ok s a then (M.step s a).bind (fun t => run ok t rest) else none

/-- States reached by runs in which every step `a` taken from `s` satisfies `ok s a`. -/
inductive Reach (ok : σ → α → Prop) : σ → Prop
  | init {s : σ} : M.init s → Reach ok s
  | step {s t : σ} {a : α} : Reach ok s → ok s a → M.step s a = some t → Reach ok t

abbrev Reachable : σ → Prop := M.Reach (fun _ _ => True)

variable {M}

/-- The invariant rule: initially true and preserved by each admitted step. -/
theorem Reach.invariant {ok : σ → α → Prop} {I : σ → Prop} (hinit : ∀ s, M.init s → I s)
    (hstep : ∀ {s a t}, I s → ok s a → M.step s a = some t → I t) {s : σ}
    (hr : M.Reach ok s) : I s := by
  induction hr with
  | init h => exact hinit _ h
  | step _ ho he ih => exact hstep ih ho he

theorem Reach.invariant_of {ok : σ → α → Prop} {K I : σ → Prop} (hK : ∀ {s}, M.Reach ok s → K s)
    (hinit : ∀ s, M.init s → I s)
    (hstep : ∀ {s a t}, K s → K t → I s → ok s a → M.step s a = some t → I t) {s : σ}
    (hr : M.Reach ok s) : I s := by
  induction hr with
  | init h => exact hinit _ h
  | step hr ho he ih => exact hstep (hK hr) (hK (hr.step ho he)) ih ho he

theorem Reach.mono {ok ok' : σ → α → Prop} (h : ∀ s a, ok s a → ok' s a) {s : σ}
    (hr : M.Reach ok s) : M.Reach ok' s := by
  induction hr with
  | init h => exact .init h
  | step _ ho he ih => exact ih.step (h _ _ ho) he

theorem Reach.run {ok : σ → α → Prop} [∀ s a, Decidable (ok s a)] {s t : σ} {as : List α}
    (hr : M.Reach ok s) (h : M.run ok s as = some t) : M.Reach ok t := by
  induction as generalizing s with
  | nil =>
    cases h
    exact hr
  | cons a rest ih =>
    simp only [System.run] at h
    split at h
    · obtain ⟨u,hu,ht⟩ := Option.bind_eq_some_iff.mp h
      exact ih (hr.step ‹_› hu) ht
    · cases h

/-- A schedule that ends in a state with the decidable property `p`. -/
theorem exists_reach_of_run (M : System σ α) (ok : σ → α → Prop) [∀ s a, Decidable (ok s a)] {s : σ}
    (hs : M.init s) (schedule : List α) (p : σ → Prop) [DecidablePred p]
    (h : (M.run ok s schedule).any (fun t => decide (p t)) = true) : ∃ t, M.Reach ok t ∧ p t := by
  obtain ⟨t,ht,hp⟩ := (Option.any_eq_true _ _).mp h
  exact ⟨t,(Reach.init hs).run ht,of_decide_eq_true hp⟩

end System
end TruenasCE.Library
