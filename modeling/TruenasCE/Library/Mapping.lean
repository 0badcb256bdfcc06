import Mathlib.Data.List.Lookmap
import Mathlib.Data.List.Basic

/-! # Mappings in insertion order

A key that is set again keeps its place. What a mapping says is told by its lookups.
-/
namespace TruenasCE.Library
variable {κ β : Type*} [DecidableEq κ]

abbrev Mapping (κ β : Type*) := List (κ × β)

namespace Mapping
variable (m : Mapping κ β) (k : κ) (v : β)

def set : Mapping κ β → κ → β → Mapping κ β
  | [], k, v => [(k,v)]
  | p :: rest, k, v => if p.1 = k then (k,v) :: rest else p :: set rest k v

/-- Set the key if the mapping lacks it. -/
def setDefault : Mapping κ β := if (m.lookup k).isSome then m else set m k v

/-- Every entry of the other mapping is set. -/
def update (m' : Mapping κ β) : Mapping κ β :=
  m.map (fun e => (e.1,(m'.lookup e.1).getD e.2)) ++ m'.filter (fun e => (m.lookup e.1).isNone)

/-- The entries whose keys satisfy the condition. -/
def retain (p : κ → Bool) : Mapping κ β := m.filter (fun e => p e.1)

def keys : List κ := m.map Prod.fst

variable {m k v} {k' : κ}

@[simp] theorem lookup_nil : ([] : Mapping κ β).lookup k = none := rfl

theorem lookup_cons (p : κ × β) : (p :: m).lookup k = if k = p.1 then some p.2 else m.lookup k := by
  rw [List.lookup_cons]
  by_cases h : k = p.1
  · simp [h]
  · rw [if_neg h,beq_eq_false_iff_ne.mpr h]

theorem lookup_set : (set m k v).lookup k' = if k' = k then some v else m.lookup k' := by
  induction m with
  | nil => simp [set,lookup_cons]
  | cons p rest ih =>
    unfold set
    split
    · rename_i hp
      simp only [lookup_cons,hp]
      split
      · rfl
      · rfl
    · rename_i hp
      rw [lookup_cons,lookup_cons,ih]
      by_cases hk : k' = p.1
      · rw [if_pos hk,if_pos hk,if_neg (fun h => hp (hk.symm.trans h))]
      · rw [if_neg hk,if_neg hk]

@[simp] theorem lookup_set_self : (set m k v).lookup k = some v := by rw [lookup_set,if_pos rfl]

theorem lookup_set_of_ne (h : k' ≠ k) : (set m k v).lookup k' = m.lookup k' := by rw [lookup_set,if_neg h]

theorem lookup_setDefault : (setDefault m k v).lookup k' =
    if k' = k then some ((m.lookup k).getD v) else m.lookup k' := by
  unfold setDefault
  cases h : m.lookup k with
  | none => simp [lookup_set]
  | some w =>
    by_cases hk : k' = k
    · simp [hk,h]
    · simp [hk]

/-- Defaults for the keys that are missing. -/
theorem lookup_foldl_setDefault (defaults : Mapping κ β) :
    (defaults.foldl (fun m e => setDefault m e.1 e.2) m).lookup k = (m.lookup k).or (defaults.lookup k) := by
  induction defaults generalizing m with
  | nil => simp
  | cons e rest ih =>
    rw [List.foldl_cons,ih,lookup_setDefault,lookup_cons]
    by_cases h : k = e.1
    · rw [if_pos h,if_pos h,Option.some_or,h]
      cases m.lookup e.1 <;> rfl
    · rw [if_neg h,if_neg h]

theorem mem_keys_iff : k ∈ keys m ↔ (m.lookup k).isSome = true := by
  induction m with
  | nil => simp [keys]
  | cons p rest ih =>
    unfold keys at ih ⊢
    rw [List.map_cons,List.mem_cons,ih,lookup_cons]
    by_cases h : k = p.1
    · simp [h]
    · simp [h]

theorem lookup_retain {p : κ → Bool} : (retain m p).lookup k = if p k then m.lookup k else none := by
  induction m with
  | nil => simp [retain]
  | cons e rest ih =>
    unfold retain at ih ⊢
    rw [List.filter_cons,lookup_cons]
    by_cases hk : k = e.1
    · subst hk
      cases hp : p e.1 with
      | true => simp [lookup_cons]
      | false => simp [ih,hp]
    · cases hp : p e.1 with
      | true => simp [lookup_cons,hk,ih]
      | false => simp [hk,ih]

omit [DecidableEq κ] in
theorem keys_retain {p : κ → Bool} : keys (retain m p) = (keys m).filter p := by
  simp [keys,retain,List.filter_map,Function.comp_def]

theorem keys_set_of_notMem (h : k ∉ keys m) : keys (set m k v) = keys m ++ [k] := by
  induction m with
  | nil => rfl
  | cons p rest ih =>
    unfold keys at h ih ⊢
    rw [List.map_cons,List.mem_cons,not_or] at h
    simp [set,Ne.symm h.1,ih h.2]

theorem mem_of_mem_set {p : κ × β} (h : p ∈ set m k v) : p = (k,v) ∨ p ∈ m := by
  induction m with
  | nil => exact Or.inl (List.mem_singleton.mp h)
  | cons q rest ih =>
    unfold set at h
    split at h
    · exact (List.mem_cons.mp h).imp_right (List.mem_cons_of_mem q)
    · rcases List.mem_cons.mp h with rfl | h
      · exact Or.inr List.mem_cons_self
      · exact (ih h).imp_right (List.mem_cons_of_mem q)

theorem lookup_append {m' : Mapping κ β} : List.lookup k (m ++ m') = (m.lookup k).or (List.lookup k m') := by
  induction m with
  | nil => rfl
  | cons p rest ih =>
    rw [List.cons_append,lookup_cons,lookup_cons,ih]
    split
    · rfl
    · rfl

theorem lookup_map_value {γ : Type*} {f : κ → β → γ} :
    List.lookup k (m.map (fun e => (e.1,f e.1 e.2))) = (m.lookup k).map (f k) := by
  induction m with
  | nil => rfl
  | cons p rest ih =>
    rw [List.map_cons,lookup_cons,lookup_cons,ih]
    by_cases h : k = p.1
    · simp [h]
    · simp [h]

theorem lookup_update {m' : Mapping κ β} : (update m m').lookup k = (m'.lookup k).or (m.lookup k) := by
  have hnew : (m'.filter (fun e => (m.lookup e.1).isNone)).lookup k =
      if (m.lookup k).isNone then m'.lookup k else none :=
    lookup_retain (m := m') (p := fun k => (m.lookup k).isNone)
  have hold : (m.map (fun e => (e.1,(m'.lookup e.1).getD e.2))).lookup k = (m.lookup k).map (fun v => (m'.lookup k).getD v) :=
    lookup_map_value (f := fun k v => (m'.lookup k).getD v)
  rw [update,lookup_append,hold,hnew]
  cases m.lookup k with
  | none => simp
  | some v => cases m'.lookup k <;> rfl

end Mapping
end TruenasCE.Library
