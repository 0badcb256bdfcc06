import Mathlib.Data.List.Basic

/-! # What a history says about the past

Histories are lists of events with the latest event first.
-/
namespace TruenasCE.Library
variable {ε : Type*}

/-- `P` holds at every point of the history, told from what was before it. -/
def Always (P : List ε → Prop) (h : List ε) : Prop := ∀ past, past <:+ h → P past

/-- `P` held at some point, and all events from there on are in `quiet`. -/
def Since (quiet : ε → Prop) (P : List ε → Prop) (h : List ε) : Prop :=
  ∃ recent past, h = recent ++ past ∧ (∀ e ∈ recent, quiet e) ∧ P past

/-- The latest event is `e`, and `P` held before it. -/
def After (e : ε) (P : List ε → Prop) (h : List ε) : Prop := ∃ past, h = e :: past ∧ P past

/-- The latest event is in `Q`. -/
def Latest (Q : ε → Prop) (h : List ε) : Prop := ∃ e past, h = e :: past ∧ Q e

variable {quiet quiet' : ε → Prop} {P Q : List ε → Prop} {h : List ε} {e : ε}

@[simp] theorem always_nil : Always P [] ↔ P [] := by simp [Always]

@[simp] theorem always_cons : Always P (e :: h) ↔ P (e :: h) ∧ Always P h := by
  simp only [Always,List.suffix_cons_iff,forall_eq_or_imp]

theorem Since.now (hP : P h) : Since quiet P h := ⟨[],h,rfl,by simp,hP⟩

theorem Since.cons (hs : Since quiet P h) (he : quiet e) : Since quiet P (e :: h) := by
  obtain ⟨recent,past,rfl,hq,hP⟩ := hs
  refine ⟨e :: recent,past,rfl,?_,hP⟩
  rintro x hx
  rcases List.mem_cons.mp hx with rfl | hx
  · exact he
  · exact hq x hx

@[simp] theorem since_nil : Since quiet P [] ↔ P [] := by simp [Since]

theorem since_cons : Since quiet P (e :: h) ↔ P (e :: h) ∨ (quiet e ∧ Since quiet P h) := by
  constructor
  · rintro ⟨recent,past,he,hq,hP⟩
    cases recent with
    | nil => exact Or.inl (by simpa [he] using hP)
    | cons x rest =>
      obtain ⟨rfl,rfl⟩ := List.cons.inj he
      exact Or.inr ⟨hq e (by simp),rest,past,rfl,fun y hy => hq y (by simp [hy]),hP⟩
  · rintro (hP | ⟨he,hs⟩)
    · exact Since.now hP
    · exact hs.cons he

theorem Since.mono (hs : Since quiet P h) (himp : ∀ e ∈ h, quiet e → quiet' e) : Since quiet' P h := by
  obtain ⟨recent,past,rfl,hq,hP⟩ := hs
  exact ⟨recent,past,rfl,fun e he => himp e (List.mem_append_left _ he) (hq e he),hP⟩

/-- Of two points where `P` held the later one counts for both. -/
theorem Since.and (hs : Since quiet P h) (hs' : Since quiet' P h) : Since (fun e => quiet e ∧ quiet' e) P h := by
  induction h with
  | nil => exact Since.now (since_nil.mp hs)
  | cons e rest ih =>
    rcases since_cons.mp hs with hP | ⟨he,hs⟩
    · exact Since.now hP
    · rcases since_cons.mp hs' with hP | ⟨he',hs'⟩
      · exact Since.now hP
      · exact (ih hs hs').cons ⟨he,he'⟩

@[simp] theorem not_latest_nil {Q : ε → Prop} : ¬ Latest Q [] := by simp [Latest]

@[simp] theorem latest_cons {Q : ε → Prop} : Latest Q (e :: h) ↔ Q e := by simp [Latest]

theorem Since.append {recent : List ε} (hs : Since quiet P h) (he : ∀ e ∈ recent, quiet e) :
    Since quiet P (recent ++ h) := by
  induction recent with
  | nil => exact hs
  | cons e rest ih => exact (ih (fun x hx => he x (List.mem_cons_of_mem _ hx))).cons (he e (List.mem_cons_self ..))

end TruenasCE.Library
