import Mathlib.Data.List.DropRight
import Mathlib.Data.List.Infix
import Mathlib.Data.List.Basic

/-! # Splitting at separators

A list is cut at each item that satisfies a predicate, or at the last occurrence of a list, or loses every occurrence.
-/
namespace TruenasCE.Library

section Items
variable {α : Type*} {p q : α → Bool} {s part : List α}

theorem mem_splitOnP {a : α} (hpart : part ∈ s.splitOnP p) (ha : a ∈ part) : a ∈ s ∧ p a = false := by
  induction s generalizing part a with
  | nil =>
    rw [List.splitOnP_nil,List.mem_singleton] at hpart
    simp [hpart] at ha
  | cons b rest ih =>
    rw [List.splitOnP_cons_eq_if_modifyHead] at hpart
    obtain ⟨first,others,hrest⟩ := List.exists_cons_of_ne_nil (List.splitOnP_ne_nil p rest)
    have htail : ∀ l ∈ first :: others, ∀ c ∈ l, c ∈ b :: rest ∧ p c = false := fun l hl c hc =>
      ⟨List.mem_cons_of_mem _ (ih (hrest ▸ hl) hc).1,(ih (hrest ▸ hl) hc).2⟩
    rw [hrest] at hpart
    cases hb : p b with
    | true =>
      rw [if_pos hb] at hpart
      rcases List.mem_cons.mp hpart with rfl | hpart
      · simp at ha
      · exact htail part hpart a ha
    | false =>
      rw [if_neg (by simp [hb]),List.modifyHead_cons] at hpart
      rcases List.mem_cons.mp hpart with rfl | hpart
      · rcases List.mem_cons.mp ha with rfl | ha
        · exact ⟨List.mem_cons_self ..,hb⟩
        · exact htail first (List.mem_cons_self ..) a ha
      · exact htail part (List.mem_cons_of_mem _ hpart) a ha

theorem exists_part {a : α} (ha : p a = false) (before after : List α) :
    ∃ init rest, init ++ a :: rest ∈ (before ++ a :: after).splitOnP p ∧ init ⊆ before ∧ rest ⊆ after := by
  induction before with
  | nil =>
    obtain ⟨first,others,hafter⟩ := List.exists_cons_of_ne_nil (List.splitOnP_ne_nil p after)
    refine ⟨[],first,?_,List.Subset.refl _,fun b hb => ?_⟩
    · rw [List.nil_append,List.nil_append,List.splitOnP_cons_eq_if_modifyHead,if_neg (by simp [ha]),hafter]
      exact List.mem_cons_self ..
    · exact (mem_splitOnP (hafter ▸ List.mem_cons_self ..) hb).1
  | cons b before ih =>
    obtain ⟨init,rest,hmem,hinit,hrest⟩ := ih
    obtain ⟨first,others,hsplit⟩ := List.exists_cons_of_ne_nil (List.splitOnP_ne_nil p (before ++ a :: after))
    rw [List.cons_append,List.splitOnP_cons_eq_if_modifyHead]
    rw [hsplit] at hmem ⊢
    split
    · exact ⟨init,rest,List.mem_cons_of_mem _ hmem,List.subset_cons_of_subset b hinit,hrest⟩
    · rcases List.mem_cons.mp hmem with heq | hmem
      · refine ⟨b :: init,rest,?_,List.cons_subset_cons b hinit,hrest⟩
        rw [List.cons_append,heq]
        exact List.mem_cons_self ..
      · exact ⟨init,rest,List.mem_cons_of_mem _ hmem,List.subset_cons_of_subset b hinit,hrest⟩

/-- The parts may first be cut out at some of the items only. -/
theorem flatMap_splitOnP (h : ∀ a, q a = true → p a = true) (s : List α) :
    (s.splitOnP q).flatMap (List.splitOnP p) = s.splitOnP p := by
  induction s with
  | nil => simp
  | cons a rest ih =>
    obtain ⟨first,others,hrest⟩ := List.exists_cons_of_ne_nil (List.splitOnP_ne_nil q rest)
    rw [hrest,List.flatMap_cons] at ih
    rw [List.splitOnP_cons_eq_if_modifyHead,List.splitOnP_cons_eq_if_modifyHead,hrest,← ih]
    cases hq : q a with
    | true => simp [h a hq]
    | false =>
      rw [if_neg (by simp),List.modifyHead_cons,List.flatMap_cons,List.splitOnP_cons_eq_if_modifyHead]
      obtain ⟨part,parts,hfirst⟩ := List.exists_cons_of_ne_nil (List.splitOnP_ne_nil p first)
      cases hp : p a with
      | true => simp
      | false => simp [hfirst]

/-- Cutting commutes with a map that leaves the separators where they are. -/
theorem splitOnP_map {β : Type*} {f : α → β} {r : β → Bool} (h : ∀ a, r (f a) = p a) (s : List α) :
    (s.map f).splitOnP r = (s.splitOnP p).map (List.map f) := by
  induction s with
  | nil => simp
  | cons a rest ih =>
    obtain ⟨first,others,hrest⟩ := List.exists_cons_of_ne_nil (List.splitOnP_ne_nil p rest)
    rw [List.map_cons,List.splitOnP_cons_eq_if_modifyHead,List.splitOnP_cons_eq_if_modifyHead,h,ih,hrest]
    split <;> simp

theorem length_splitOnP (s : List α) : (s.splitOnP p).length = s.countP p + 1 := by
  induction s with
  | nil => simp
  | cons a rest ih =>
    rw [List.splitOnP_cons_eq_if_modifyHead,List.countP_cons]
    split
    · rw [List.length_cons,ih]
    · rw [List.length_modifyHead,ih]

theorem dropWhile_append_cons {a : α} (ha : p a = false) (s t : List α) :
    (s ++ a :: t).dropWhile p = s.dropWhile p ++ a :: t := by
  induction s with
  | nil => rw [List.nil_append,List.dropWhile_cons,if_neg (by simp [ha])]; rfl
  | cons b rest ih =>
    rw [List.cons_append,List.dropWhile_cons,List.dropWhile_cons]
    split
    · exact ih
    · rfl

theorem rdropWhile_append_cons {a : α} (ha : p a = false) (s t : List α) :
    (s ++ a :: t).rdropWhile p = s ++ a :: t.rdropWhile p := by
  have hreverse : (s ++ a :: t).reverse = t.reverse ++ a :: s.reverse := by simp
  rw [List.rdropWhile,hreverse,dropWhile_append_cons ha,List.reverse_append,List.reverse_cons,List.reverse_reverse]
  simp [List.rdropWhile]

theorem takeWhile_append_cons {a : α} (ha : p a = false) (hs : ∀ b ∈ s, p b = true) (t : List α) :
    (s ++ a :: t).takeWhile p = s := by
  rw [List.takeWhile_append_of_pos hs,List.takeWhile_cons,if_neg (by simp [ha]),List.append_nil]

end Items

variable {α : Type*} [DecidableEq α] {sep : List α}

/-- What stands before and behind the last occurrence of `sep`. -/
def rpartition (sep : List α) : List α → Option (List α × List α)
  | [] => none
  | a :: rest =>
    match rpartition sep rest with
    | some (before,after) => some (a :: before,after)
    | none => if sep <+: a :: rest then some ([],(a :: rest).drop sep.length) else none

/-- Nothing is cut exactly where the separator does not occur. -/
theorem rpartition_eq_none_iff (hsep : sep ≠ []) {s : List α} : rpartition sep s = none ↔ ¬ sep <:+: s := by
  induction s with
  | nil => simp [rpartition,hsep]
  | cons a rest ih =>
    rw [rpartition,List.infix_cons_iff]
    cases hrest : rpartition sep rest with
    | some p =>
      have hin : sep <:+: rest := by
        by_contra hno
        rw [ih.mpr hno] at hrest
        cases hrest
      simp [hin]
    | none =>
      have hno := ih.mp hrest
      by_cases hpre : sep <+: a :: rest
      · simp [hpre]
      · simp [hpre,hno]

omit [DecidableEq α] in
/-- An occurrence that begins later ends later, so its last item lies behind the first one. -/
theorem mem_of_infix_tail {x : α} {init after : List α} (h : init ++ [x] <:+: (init ++ [x]).tail ++ after) :
    x ∈ after := by
  obtain ⟨before,behind,heq⟩ := h
  have hlength := congrArg List.length heq
  have hsuffix : x :: behind <:+ (init ++ [x]).tail ++ after := ⟨before ++ init,by rw [← heq]; simp⟩
  have hle : (x :: behind).length ≤ after.length := by
    simp only [List.length_append,List.length_cons,List.length_nil,List.length_tail] at hlength ⊢
    omega
  have hbehind := List.suffix_of_suffix_length_le hsuffix (List.suffix_append _ after) hle
  exact hbehind.subset (List.mem_cons_self ..)

/-- The last item of the separator does not occur behind it, so this is the last occurrence. -/
theorem rpartition_append {x : α} {init after : List α} (hx : x ∉ after) (before : List α) :
    rpartition (init ++ [x]) (before ++ ((init ++ [x]) ++ after)) = some (before,after) := by
  have hsep : init ++ [x] ≠ [] := by simp
  induction before with
  | nil =>
    have hnone : rpartition (init ++ [x]) ((init ++ [x]).tail ++ after) = none :=
      (rpartition_eq_none_iff hsep).mpr (fun h => hx (mem_of_infix_tail h))
    obtain ⟨a,rest,hcons⟩ := List.exists_cons_of_ne_nil hsep
    rw [hcons] at hnone ⊢
    simp only [List.nil_append,List.cons_append,rpartition,List.tail_cons] at hnone ⊢
    rw [hnone]
    simp
  | cons a rest ih => rw [List.cons_append,rpartition,ih]

theorem rpartition_singleton_append {x : α} {after : List α} (hx : x ∉ after) (before : List α) :
    rpartition [x] (before ++ x :: after) = some (before,after) := by
  have happend : rpartition ([] ++ [x]) (before ++ (([] ++ [x]) ++ after)) = some (before,after) :=
    rpartition_append hx before
  simpa using happend

/-- What is left of a text when `old` is taken out, behind `skip` items that are to go. -/
def removeFrom (old : List α) : ℕ → List α → List α
  | _,[] => []
  | skip + 1,_ :: s => removeFrom old skip s
  | 0,a :: s => if old <+: a :: s then removeFrom old (old.length - 1) s else a :: removeFrom old 0 s

/-- A text without the occurrences of `old`, taken out from the left. -/
def removeAll (old s : List α) : List α := removeFrom old 0 s

variable {old : List α}

/-- What does not stand in `old` ends what can be taken out, and begins it anew. -/
theorem removeFrom_append_cons {a : α} (hold : old ≠ []) (ha : a ∉ old) {skip : ℕ} {s : List α} (hskip : skip ≤ s.length)
    (t : List α) : removeFrom old skip (s ++ a :: t) = removeFrom old skip s ++ a :: removeAll old t := by
  induction s generalizing skip with
  | nil =>
    obtain rfl : skip = 0 := Nat.le_zero.mp hskip
    have hno : ¬ old <+: a :: t := by
      rintro hpre
      obtain ⟨b,rest,rfl⟩ := List.exists_cons_of_ne_nil hold
      obtain ⟨rfl,-⟩ := List.cons_prefix_cons.mp hpre
      exact ha List.mem_cons_self
    have hcons : removeFrom old 0 (a :: t) = a :: removeFrom old 0 t := if_neg hno
    rw [List.nil_append,hcons]
    rfl
  | cons b s ih =>
    cases skip with
    | succ skip => exact ih (Nat.le_of_succ_le_succ hskip)
    | zero =>
      have hiff : old <+: b :: (s ++ a :: t) ↔ old <+: b :: s := by
        constructor
        · intro hpre
          by_contra hno
          have hlength : (b :: s).length < old.length := by
            by_contra hle
            exact hno (List.prefix_of_prefix_length_le hpre (List.prefix_append (b :: s) (a :: t)) (not_lt.mp hle))
          have hwhole : b :: s ++ [a] <+: old := by
            have hlonger : b :: s ++ [a] <+: b :: (s ++ a :: t) := ⟨t,by simp⟩
            refine List.prefix_of_prefix_length_le hlonger hpre ?_
            simp only [List.length_append,List.length_cons,List.length_nil] at hlength ⊢
            omega
          exact ha (hwhole.subset (by simp))
        · exact fun hpre => hpre.trans (List.prefix_append (b :: s) (a :: t))
      rw [List.cons_append,removeFrom,removeFrom,if_congr hiff rfl rfl]
      split
      · rename_i hpre
        have hle := hpre.length_le
        rw [List.length_cons] at hle
        exact ih (by omega)
      · rw [ih (Nat.zero_le _)]
        rfl

theorem mem_of_mem_removeFrom {a : α} {skip : ℕ} {s : List α} (ha : a ∈ removeFrom old skip s) : a ∈ s := by
  induction s generalizing skip with
  | nil =>
    rw [removeFrom] at ha
    cases ha
  | cons b s ih =>
    cases skip with
    | succ skip => exact List.mem_cons_of_mem b (ih ha)
    | zero =>
      rw [removeFrom] at ha
      split at ha
      · exact List.mem_cons_of_mem b (ih ha)
      · rcases List.mem_cons.mp ha with rfl | ha
        · exact List.mem_cons_self
        · exact List.mem_cons_of_mem b (ih ha)

end TruenasCE.Library
