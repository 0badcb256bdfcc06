import Mathlib.Data.List.Nodup

/-! # Which of two members of a list comes first

Told by the sublists of two members, so that a longer list and a shorter one agree.
-/
namespace TruenasCE.Library
variable {α β : Type*} {l m p r : List α} {a b : α}

def Precedes (l : List α) (a b : α) : Prop := List.Sublist [a,b] l

instance [DecidableEq α] (l : List α) (a b : α) : Decidable (Precedes l a b) :=
  inferInstanceAs (Decidable (List.Sublist [a,b] l))

theorem Precedes.of_sublist (h : Precedes m a b) (hs : m.Sublist l) : Precedes l a b := h.trans hs

theorem Precedes.map (f : α → β) (h : Precedes l a b) : Precedes (l.map f) (f a) (f b) := List.Sublist.map f h

theorem precedes_of_mem (ha : a ∈ p) : Precedes (p ++ b :: r) a b :=
  (List.singleton_sublist.mpr ha).append (List.singleton_sublist.mpr (List.mem_cons_self))

/-- Where `b` stands once, the members before it are those in front of it. -/
theorem precedes_iff (hn : (p ++ b :: r).Nodup) : Precedes (p ++ b :: r) a b ↔ a ∈ p := by
  refine ⟨fun h => ?_,precedes_of_mem⟩
  obtain ⟨_,hbr,hdis⟩ := List.nodup_append.mp hn
  obtain ⟨x,y,hxy,hx,hy⟩ := List.sublist_append_iff.mp h
  cases x with
  | nil =>
    obtain rfl : [a,b] = y := hxy
    have hb : b ∈ r := by
      cases hy with
      | cons _ hy => exact hy.subset (by simp)
      | cons_cons _ hy => exact hy.subset (by simp)
    exact absurd hb (List.nodup_cons.mp hbr).1
  | cons x₀ x =>
    obtain ⟨rfl,_⟩ := List.cons.inj hxy
    exact hx.subset (by simp)

theorem Precedes.asymm (hn : l.Nodup) (h : Precedes l a b) : ¬ Precedes l b a := by
  intro h'
  obtain ⟨p,r,rfl⟩ := List.append_of_mem (h.subset (by simp) : b ∈ l)
  have ha : a ∈ p := (precedes_iff hn).mp h
  obtain ⟨q,s,rfl⟩ := List.append_of_mem ha
  rw [List.append_assoc,List.cons_append] at hn h'
  have hb : b ∈ q := (precedes_iff hn).mp h'
  exact (List.nodup_append.mp hn).2.2 b hb b (by simp) rfl

theorem precedes_total (ha : a ∈ l) (hb : b ∈ l) (hne : a ≠ b) : Precedes l a b ∨ Precedes l b a := by
  obtain ⟨p,r,rfl⟩ := List.append_of_mem hb
  rcases List.mem_append.mp ha with hp | hr
  · exact Or.inl (precedes_of_mem hp)
  · have hr' : a ∈ r := (List.mem_cons.mp hr).resolve_left hne
    exact Or.inr (((List.singleton_sublist.mpr hr').cons_cons b).trans (List.sublist_append_right p _))

/-- A shorter list keeps the order of its members. -/
theorem Precedes.restrict (hn : l.Nodup) (h : Precedes l a b) (hs : m.Sublist l) (ha : a ∈ m) (hb : b ∈ m) :
    Precedes m a b := by
  have hne : a ≠ b := by
    rintro rfl
    exact h.asymm hn h
  exact (precedes_total ha hb hne).resolve_right (fun h' => h.asymm hn (h'.of_sublist hs))

/-- What is found comes before everything else that could have been. -/
theorem precedes_of_find {q : α → Bool} (h : l.find? q = some a) (hb : b ∈ l) (hq : q b = true) (hne : b ≠ a) :
    Precedes l a b := by
  obtain ⟨_,p,r,rfl,hp⟩ := List.find?_eq_some_iff_append.mp h
  rcases List.mem_append.mp hb with hbp | hbr
  · have hnot := hp b hbp
    simp [hq] at hnot
  · have hbr' : b ∈ r := (List.mem_cons.mp hbr).resolve_left hne
    exact ((List.singleton_sublist.mpr hbr').cons_cons a).trans (List.sublist_append_right p _)
end TruenasCE.Library
