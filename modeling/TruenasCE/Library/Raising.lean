import Mathlib.Logic.Basic

/-! # Computations that may raise

A computation that raises leaves its result in the error: the state it got to. A condition
on both ends of such a computation is carried through its continuation.
-/
namespace TruenasCE.Library
variable {ε α β γ : Type*}

/-- A condition on both ways a computation may end. -/
def Post (E : ε → Prop) (Q : α → Prop) : Except ε α → Prop
  | .error e => E e
  | .ok a => Q a

theorem Post.map {E : ε → Prop} {Q : β → Prop} {f : α → β} {x : Except ε α} (h : Post E (fun a => Q (f a)) x) :
    Post E Q (x.map f) := by
  cases x with
  | error e => exact h
  | ok a => exact h

theorem Post.imp {E E' : ε → Prop} {Q Q' : α → Prop} {x : Except ε α} (h : Post E Q x) (hE : ∀ e, E e → E' e)
    (hQ : ∀ a, Q a → Q' a) : Post E' Q' x := by
  cases x with
  | error e => exact hE e h
  | ok a => exact hQ a h

theorem of_map_ok {x : Except ε α} {f : α → β} {b : β} (h : x.map f = .ok b) : ∃ a, x = .ok a ∧ f a = b := by
  cases x with
  | error _ => cases h
  | ok a => exact ⟨a,rfl,Except.ok.inj h⟩

theorem exists_of_bind_ok {ε α β : Type} {x : Except ε α} {f : α → Except ε β} {b : β} (h : x >>= f = .ok b) :
    ∃ a, x = .ok a ∧ f a = .ok b := by
  cases x with
  | error _ => cases h
  | ok a => exact ⟨a,rfl,h⟩

theorem exists_map_ok_iff {x : Except ε α} {f : α → β} : (∃ b, x.map f = .ok b) ↔ ∃ a, x = .ok a := by
  cases x with
  | error _ => simp [Except.map]
  | ok a => simp [Except.map]

theorem map_map {x : Except ε α} {f : α → β} {g : β → γ} : (x.map f).map g = x.map (fun a => g (f a)) := by
  cases x <;> rfl

/-- Computations that agree on a part of their results agree on all that is made of it. -/
theorem map_congr_of {x y : Except ε α} {f : α → β} (h : x.map f = y.map f) (g : β → γ) :
    x.map (fun a => g (f a)) = y.map (fun a => g (f a)) := by
  rw [← map_map,h,map_map]

section EndsIf
variable {ε α β : Type} {e : ε} {P Q : Prop} {a : α} {b : β} {x : Except ε α}

/-- The computation ends with the value if the condition holds, and with the error if it does not. -/
def EndsIf (e : ε) (P : Prop) (a : α) (x : Except ε α) : Prop := (P → x = .ok a) ∧ (¬ P → x = .error e)

theorem EndsIf.ok_iff {a' : α} (h : EndsIf e P a x) : x = .ok a' ↔ P ∧ a' = a := by
  by_cases hP : P
  · rw [h.1 hP]
    simp [hP,eq_comm]
  · rw [h.2 hP]
    simp [hP]

theorem EndsIf.congr (h : EndsIf e P a x) (hPQ : P ↔ Q) : EndsIf e Q a x := by
  rw [EndsIf,← hPQ]
  exact h

theorem endsIf_of (hP : P) : EndsIf e P a (.ok a) := ⟨fun _ => rfl,fun hnot => absurd hP hnot⟩

theorem endsIf_error (hP : ¬ P) : EndsIf e P a (.error e) := ⟨fun h => absurd h hP,fun _ => rfl⟩

/-- Both of two computations in a row have to succeed. -/
theorem EndsIf.bind {f : α → Except ε β} (hx : EndsIf e P a x) (hf : P → EndsIf e Q b (f a)) :
    EndsIf e (P ∧ Q) b (x >>= f) := by
  by_cases hP : P
  · rw [hx.1 hP]
    exact (hf hP).congr (and_iff_right hP).symm
  · rw [hx.2 hP]
    exact endsIf_error (fun h => hP h.1)

/-- What follows a computation may not raise. -/
theorem EndsIf.bind_pure (f : α → β) (hx : EndsIf e P a x) : EndsIf e P (f a) (x >>= fun a => pure (f a)) :=
  (hx.bind (f := fun a => pure (f a)) (fun _ => endsIf_of trivial)).congr (and_iff_left trivial)

end EndsIf

/-- The state a computation leaves, whether it raised or not. -/
def leaves : Except ε (ε × α) → ε
  | .error s => s
  | .ok p => p.1

theorem Post.leaves {P : ε → Prop} {x : Except ε (ε × α)} (h : Post P (fun p => P p.1) x) : P (leaves x) := by
  cases x with
  | error s => exact h
  | ok p => exact h

/-- The state a computation without a result leaves. -/
def ended : Except ε ε → ε
  | .error s => s
  | .ok s => s

theorem Post.ended {P : ε → Prop} {x : Except ε ε} (h : Post P P x) : P (ended x) := by
  cases x with
  | error s => exact h
  | ok s => exact h

end TruenasCE.Library
