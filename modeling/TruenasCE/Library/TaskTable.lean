import Mathlib.Data.Finset.Card
import Mathlib.Logic.Function.Basic

/-! # Tables of suspended tasks

Cooperatively scheduled tasks are kept by number. A number is never given out
twice: everything at or above `next` is free, which the table carries as a field.
-/
namespace TruenasCE.Library
variable {τ : Type*}

structure TaskTable (τ : Type*) where
  get : ℕ → Option τ
  next : ℕ
  fresh : ∀ n, next ≤ n → get n = none

namespace TaskTable

def empty : TaskTable τ := ⟨fun _ => none,0,fun _ _ => rfl⟩

@[simp] theorem get_empty (n : ℕ) : (empty : TaskTable τ).get n = none := rfl

theorem lt_next {T : TaskTable τ} {n : ℕ} {x : τ} (h : T.get n = some x) : n < T.next := by
  by_contra hn
  simp [T.fresh n (by omega)] at h

/-- Start a task under the next free number. -/
def spawn (T : TaskTable τ) (x : τ) : TaskTable τ where
  get n := if n = T.next then some x else T.get n
  next := T.next + 1
  fresh n hn := by simp [show n ≠ T.next by omega,T.fresh n (by omega)]

/-- Move a known task to its next suspension point, or drop it when it returns. -/
def set (T : TaskTable τ) (n : ℕ) (o : Option τ) : TaskTable τ where
  get m := if m = n then o.bind (fun x => (T.get n).map (fun _ => x)) else T.get m
  next := T.next
  fresh m hm := by
    by_cases h : m = n
    · subst h
      simp [T.fresh m hm]
    · simp [h,T.fresh m hm]

@[simp] theorem next_spawn (T : TaskTable τ) (x : τ) : (T.spawn x).next = T.next + 1 := rfl
@[simp] theorem next_set (T : TaskTable τ) (n : ℕ) (o : Option τ) : (T.set n o).next = T.next := rfl

theorem get_spawn (T : TaskTable τ) (x : τ) (n : ℕ) :
    (T.spawn x).get n = if n = T.next then some x else T.get n := rfl

theorem get_set {T : TaskTable τ} {n : ℕ} {x : τ} (h : T.get n = some x) (o : Option τ) (m : ℕ) :
    (T.set n o).get m = if m = n then o else T.get m := by
  simp only [set,h,Option.map_some]
  cases o <;> rfl

theorem get_spawn_cases {T : TaskTable τ} {x y : τ} {n : ℕ} (h : (T.spawn x).get n = some y) :
    (n = T.next ∧ y = x) ∨ T.get n = some y := by
  rw [get_spawn] at h
  split at h
  · exact Or.inl ⟨‹_›,(Option.some.inj h).symm⟩
  · exact Or.inr h

theorem get_set_cases {T : TaskTable τ} {n m : ℕ} {o : Option τ} {y : τ}
    (h : (T.set n o).get m = some y) : (m = n ∧ o = some y) ∨ (m ≠ n ∧ T.get m = some y) := by
  simp only [set] at h
  split at h
  · rename_i hm
    obtain ⟨x,hx,hy⟩ := Option.bind_eq_some_iff.mp h
    obtain ⟨_,_,rfl⟩ := Option.map_eq_some_iff.mp hy
    exact Or.inl ⟨hm,hx⟩
  · exact Or.inr ⟨‹_›,h⟩

section Count
variable (p : τ → Bool)

/-- The numbers of the tasks with property `p`. -/
def having (T : TaskTable τ) : Finset ℕ := (Finset.range T.next).filter (fun n => (T.get n).any p)

def count (T : TaskTable τ) : ℕ := (T.having p).card

variable {p}

@[simp] theorem mem_having {T : TaskTable τ} {n : ℕ} :
    n ∈ T.having p ↔ ∃ x, T.get n = some x ∧ p x = true := by
  simp only [having,Finset.mem_filter,Finset.mem_range,Option.any_eq_true]
  exact ⟨fun h => h.2,fun h => ⟨h.elim (fun _ hx => lt_next hx.1),h⟩⟩

@[simp] theorem count_empty : (empty : TaskTable τ).count p = 0 := rfl

theorem count_pos {T : TaskTable τ} {n : ℕ} {x : τ} (h : T.get n = some x) (hp : p x = true) :
    0 < T.count p := Finset.card_pos.mpr ⟨n,mem_having.mpr ⟨x,h,hp⟩⟩

theorem count_spawn (T : TaskTable τ) (x : τ) :
    (T.spawn x).count p = T.count p + if p x then 1 else 0 := by
  have hn : T.next ∉ T.having p := by simp [T.fresh T.next le_rfl]
  by_cases hp : p x = true
  · have he : (T.spawn x).having p = insert T.next (T.having p) := by
      ext m
      by_cases hm : m = T.next <;> simp [get_spawn,hm,hp]
    simp [count,he,Finset.card_insert_of_notMem hn,hp]
  · have he : (T.spawn x).having p = T.having p := by
      ext m
      by_cases hm : m = T.next
      · subst hm
        simp [get_spawn,hp,T.fresh T.next le_rfl]
      · simp [get_spawn,hm]
    simp [count,he,hp]

theorem count_set_of_eq {T : TaskTable τ} {n : ℕ} {x y : τ} (h : T.get n = some x)
    (hp : p y = p x) : (T.set n (some y)).count p = T.count p := by
  have he : (T.set n (some y)).having p = T.having p := by
    ext m
    by_cases hm : m = n
    · subst hm
      simp [get_set h,h,hp]
    · simp [get_set h,hm]
  simp [count,he]

theorem count_set_none_of_not {T : TaskTable τ} {n : ℕ} {x : τ} (h : T.get n = some x)
    (hp : p x = false) : (T.set n none).count p = T.count p := by
  have he : (T.set n none).having p = T.having p := by
    ext m
    by_cases hm : m = n
    · subst hm
      simp [get_set h,h,hp]
    · simp [get_set h,hm]
  simp [count,he]

theorem count_set_none {T : TaskTable τ} {n : ℕ} {x : τ} (h : T.get n = some x)
    (hp : p x = true) : (T.set n none).count p = T.count p - 1 := by
  have he : (T.set n none).having p = (T.having p).erase n := by
    ext m
    by_cases hm : m = n
    · subst hm
      simp [get_set h]
    · simp [get_set h,hm]
  rw [count,he,Finset.card_erase_of_mem (mem_having.mpr ⟨x,h,hp⟩),count]

end Count
end TaskTable
end TruenasCE.Library
