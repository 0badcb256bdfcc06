import Mathlib.Data.List.Basic

/-! # Functions that settle a value

A function that has one value, or keeps its argument or drops it to a rest value that it keeps, settles what it is applied
to; and so does a sequence of such functions, however they are mixed.
-/
namespace TruenasCE.Library
variable {α β : Type*}

def Settles (rest : α) (f : α → α) : Prop := (∀ v w, f v = f w) ∨ (f rest = rest ∧ ∀ v, f v = v ∨ f v = rest)

variable {rest : α} {f g : α → α}

theorem settles_const (v : α) : Settles rest (fun _ => v) := Or.inl (fun _ _ => rfl)

theorem settles_id : Settles rest (fun v => v) := Or.inr ⟨rfl,fun _ => Or.inl rfl⟩

theorem Settles.comp (hf : Settles rest f) (hg : Settles rest g) : Settles rest (f ∘ g) := by
  rcases hf with hf | ⟨hfrest,hf⟩
  · exact Or.inl (fun v w => hf (g v) (g w))
  · rcases hg with hg | ⟨hgrest,hg⟩
    · exact Or.inl (fun v w => congrArg f (hg v w))
    · refine Or.inr ⟨(congrArg f hgrest).trans hfrest,fun v => ?_⟩
      rw [Function.comp_apply]
      rcases hg v with hkeep | hdrop
      · rw [hkeep]
        exact hf v
      · rw [hdrop,hfrest]
        exact Or.inr rfl

theorem Settles.idem (hf : Settles rest f) (v : α) : f (f v) = f v := by
  rcases hf with hf | ⟨hrest,hf⟩
  · exact hf (f v) v
  · rcases hf v with hkeep | hdrop
    · rw [hkeep,hkeep]
    · rw [hdrop,hrest]

/-- A sequence settles if each of its functions does. -/
theorem settles_foldl {h : β → α → α} {bs : List β} (hh : ∀ b ∈ bs, Settles rest (h b)) :
    Settles rest (fun v => bs.foldl (fun v b => h b v) v) := by
  induction bs with
  | nil => exact settles_id
  | cons b bs ih => exact (ih (fun c hc => hh c (List.mem_cons_of_mem b hc))).comp (hh b List.mem_cons_self)

end TruenasCE.Library
