import Mathlib.Data.List.Chain

/-! # A flag that tells of its changes

Of several failures in a row the first raises the flag, and the success behind them lowers it. Each change gives one
line. Observations and lines are listed with the latest first.
-/
namespace TruenasCE.Library

inductive Edge
  | raised
  | cleared
  deriving DecidableEq, Repr

/-- The lines of an observation under a flag: none while it says what the flag says. -/
def edge (up bad : Bool) : List Edge := if up = bad then [] else if bad then [.raised] else [.cleared]

def edges : List Bool → List Edge
  | [] => []
  | bad :: older => edge (older.headD false) bad ++ edges older

/-- A warning and a recovery take turns, a warning comes first, and the flag is up behind a warning. -/
structure Latched (up : Bool) (lines : List Edge) : Prop where
  turns : lines.IsChain (· ≠ ·)
  first : ∀ e ∈ lines.getLast?, e = .raised
  latest : up = true ↔ lines.head? = some .raised

/-- The flag and the lines are those of the observations. -/
structure Told (up : Bool) (lines : List Edge) (seen : List Bool) : Prop where
  flag : up = seen.headD false
  lines : lines = edges seen

variable {up : Bool} {lines : List Edge} {seen : List Bool}

theorem latched_nil : Latched false [] := ⟨List.isChain_nil,by simp,by simp⟩

theorem Latched.observe (h : Latched up lines) (bad : Bool) : Latched bad (edge up bad ++ lines) := by
  unfold edge
  split
  · rename_i heq
    exact heq ▸ h
  · rename_i hne
    have hlatest := h.latest
    cases bad with
    | true =>
      obtain rfl : up = false := Bool.eq_false_iff.mpr hne
      refine ⟨?_,fun e he => ?_,by simp⟩
      · refine h.turns.cons (fun e he heq => ?_)
        rw [heq,Option.mem_def.mp he] at hlatest
        exact absurd (hlatest.mpr rfl) Bool.false_ne_true
      · cases lines with
        | nil => exact (Option.some.inj he).symm
        | cons line rest => exact h.first e (by simpa using he)
    | false =>
      obtain rfl : up = true := by simpa using hne
      obtain ⟨rest,rfl⟩ : ∃ rest, lines = .raised :: rest := by
        cases lines with
        | nil => simp at hlatest
        | cons line rest => exact ⟨rest,by simpa using hlatest⟩
      refine ⟨h.turns.cons (fun e he => ?_),fun e he => h.first e (by simpa using he),by simp⟩
      obtain rfl : e = .raised := (Option.some.inj he).symm
      exact Edge.noConfusion

theorem latched_edges (seen : List Bool) : Latched (seen.headD false) (edges seen) := by
  induction seen with
  | nil => exact latched_nil
  | cons bad older ih => exact ih.observe bad

theorem Told.latched (h : Told up lines seen) : Latched up lines := by
  rw [h.flag,h.lines]
  exact latched_edges seen

theorem Told.observe (h : Told up lines seen) (bad : Bool) : Told bad (edge up bad ++ lines) (bad :: seen) :=
  ⟨rfl,by rw [h.flag,h.lines]; rfl⟩

/-- There is a warning more than there are recoveries, while the flag is up. -/
theorem count_edges (seen : List Bool) :
    (edges seen).count .raised = (edges seen).count .cleared + (seen.headD false).toNat := by
  induction seen with
  | nil => rfl
  | cons bad older ih =>
    rw [edges,List.count_append,List.count_append,ih]
    cases older.headD false with
    | true =>
      cases bad with
      | true => simp [edge]
      | false => simp [edge,Nat.add_comm]
    | false =>
      cases bad with
      | true => simp [edge,Nat.add_comm]
      | false => simp [edge]

end TruenasCE.Library
