import Mathlib.Data.Fintype.Card
import Mathlib.Data.Finset.BooleanAlgebra
import Mathlib.Data.Finset.Card
import Mathlib.Data.List.Basic

/-! # Depth-first walks

A walk takes its tasks from a stack. One whose key has been entered is dropped; any other is entered, and the tasks
below it come before those that are left. Only finitely many keys can be entered, so a walk ends.
-/
namespace TruenasCE.Library
variable {τ κ : Type*} [DecidableEq κ] (key : τ → κ) (below : τ → List τ)

/-- The tasks that a walk enters, in order, and the keys entered by its end. -/
def walk [Fintype κ] : List τ → Finset κ → List τ × Finset κ
  | [],seen => ([],seen)
  | t :: rest,seen =>
    if key t ∈ seen then walk rest seen
    else
      let ends := walk (below t ++ rest) (insert (key t) seen)
      (t :: ends.1,ends.2)
termination_by tasks seen => (seenᶜ.card,tasks.length)
decreasing_by
  · exact Prod.Lex.right _ (Nat.lt_succ_self _)
  · refine Prod.Lex.left _ _ (Finset.card_lt_card ?_)
    exact Finset.compl_ssubset_compl.mpr (Finset.ssubset_insert ‹_›)

variable {key below} [Fintype κ] {t : τ} {tasks rest : List τ} {seen : Finset κ}

@[simp] theorem walk_nil : walk key below [] seen = ([],seen) := by
  rw [walk]

theorem walk_of_mem (h : key t ∈ seen) : walk key below (t :: rest) seen = walk key below rest seen := by
  rw [walk,if_pos h]

theorem walk_of_notMem (h : key t ∉ seen) :
    walk key below (t :: rest) seen =
      (t :: (walk key below (below t ++ rest) (insert (key t) seen)).1,
        (walk key below (below t ++ rest) (insert (key t) seen)).2) := by
  rw [walk,if_neg h]

/-- The tasks in front are done before those behind them. -/
theorem walk_append (tasks rest : List τ) (seen : Finset κ) :
    walk key below (tasks ++ rest) seen =
      ((walk key below tasks seen).1 ++ (walk key below rest (walk key below tasks seen).2).1,
        (walk key below rest (walk key below tasks seen).2).2) := by
  induction tasks, seen using walk.induct key below with
  | case1 seen => simp
  | case2 t tasks seen hmem ih =>
    rw [List.cons_append,walk_of_mem hmem,walk_of_mem hmem]
    exact ih
  | case3 t tasks seen hnot ih =>
    rw [List.cons_append,walk_of_notMem hnot,walk_of_notMem hnot,← List.append_assoc,ih]
    rfl

/-- What holds of the tasks at hand, and of those below an entered one that has it, holds of all that are entered. -/
theorem forall_walk {Q : τ → Prop} (htasks : ∀ t ∈ tasks, Q t)
    (hbelow : ∀ t ∈ (walk key below tasks seen).1, Q t → ∀ t' ∈ below t, Q t') :
    ∀ t ∈ (walk key below tasks seen).1, Q t := by
  induction tasks, seen using walk.induct key below with
  | case1 seen => simp
  | case2 t tasks seen hmem ih =>
    rw [walk_of_mem hmem] at hbelow ⊢
    exact ih (fun t' ht' => htasks t' (List.mem_cons_of_mem _ ht')) hbelow
  | case3 t tasks seen hnot ih =>
    rw [walk_of_notMem hnot] at hbelow ⊢
    have ht : Q t := htasks t List.mem_cons_self
    have hrest := ih (fun t' ht' => ?_) (fun t' ht' => hbelow t' (List.mem_cons_of_mem _ ht'))
    · exact List.forall_mem_cons.mpr ⟨ht,hrest⟩
    · rcases List.mem_append.mp ht' with hmem | hmem
      · exact hbelow t List.mem_cons_self ht t' hmem
      · exact htasks t' (List.mem_cons_of_mem _ hmem)

theorem mem_walk_iff {k : κ} :
    k ∈ (walk key below tasks seen).2 ↔ k ∈ seen ∨ ∃ t ∈ (walk key below tasks seen).1, key t = k := by
  induction tasks, seen using walk.induct key below with
  | case1 seen => simp
  | case2 t tasks seen hmem ih =>
    rw [walk_of_mem hmem]
    exact ih
  | case3 t tasks seen hnot ih =>
    rw [walk_of_notMem hnot,ih,Finset.mem_insert,List.exists_mem_cons_iff,eq_comm,or_assoc,or_left_comm]

theorem subset_walk : seen ⊆ (walk key below tasks seen).2 := fun _ h => mem_walk_iff.mpr (Or.inl h)

/-- A key that has been entered is not entered again. -/
theorem notMem_of_walk (h : t ∈ (walk key below tasks seen).1) : key t ∉ seen := by
  induction tasks, seen using walk.induct key below with
  | case1 seen => simp at h
  | case2 t' tasks seen hmem ih =>
    rw [walk_of_mem hmem] at h
    exact ih h
  | case3 t' tasks seen hnot ih =>
    rw [walk_of_notMem hnot] at h
    rcases List.mem_cons.mp h with rfl | h
    · exact hnot
    · exact fun hmem => ih h (Finset.mem_insert_of_mem hmem)

theorem nodup_walk : ((walk key below tasks seen).1.map key).Nodup := by
  induction tasks, seen using walk.induct key below with
  | case1 seen => simp
  | case2 t tasks seen hmem ih =>
    rw [walk_of_mem hmem]
    exact ih
  | case3 t tasks seen hnot ih =>
    rw [walk_of_notMem hnot,List.map_cons,List.nodup_cons]
    refine ⟨fun hmem => ?_,ih⟩
    obtain ⟨t',ht',heq⟩ := List.mem_map.mp hmem
    exact notMem_of_walk ht' (heq ▸ Finset.mem_insert_self _ _)

/-- No task is left. -/
theorem mem_walk_of_mem (h : t ∈ tasks) : key t ∈ (walk key below tasks seen).2 := by
  induction tasks, seen using walk.induct key below with
  | case1 seen => cases h
  | case2 t' tasks seen hmem ih =>
    rw [walk_of_mem hmem]
    rcases List.mem_cons.mp h with rfl | h
    · exact subset_walk hmem
    · exact ih h
  | case3 t' tasks seen hnot ih =>
    rw [walk_of_notMem hnot]
    rcases List.mem_cons.mp h with rfl | h
    · exact subset_walk (Finset.mem_insert_self _ _)
    · exact ih (List.mem_append_right _ h)

/-- Nor is one below an entered task. -/
theorem mem_walk_of_mem_below {t' : τ} (h : t ∈ (walk key below tasks seen).1) (hbelow : t' ∈ below t) :
    key t' ∈ (walk key below tasks seen).2 := by
  induction tasks, seen using walk.induct key below with
  | case1 seen => simp at h
  | case2 t₀ tasks seen hmem ih =>
    rw [walk_of_mem hmem] at h ⊢
    exact ih h
  | case3 t₀ tasks seen hnot ih =>
    rw [walk_of_notMem hnot] at h ⊢
    rcases List.mem_cons.mp h with rfl | h
    · exact mem_walk_of_mem (List.mem_append_left _ hbelow)
    · exact ih h

end TruenasCE.Library
