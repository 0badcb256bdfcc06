import Mathlib.Algebra.BigOperators.Ring.Finset
import Mathlib.Algebra.Order.BigOperators.Group.Finset
import TruenasCE.Library.DepthFirst
import TruenasCE.Redaction.Graph

/-! # The walk over the exceptions

What a container is copied to depends on the containers around it alone. Of the exceptions met meanwhile each is
entered once, in the order of a depth-first walk, and scrubbing succeeds exactly if every call of that walk finds a
frame.
-/
namespace TruenasCE.Redaction
open Library

variable {ι ε κ σ : Type} [DecidableEq ι] [DecidableEq ε] (g : Graph ι ε κ σ) (c : Scrubber κ)

def Container.walked : Container ι ε κ σ → List (Item ι ε σ)
  | .list items => items
  | .tuple items => items
  | .dict entries => (entries.filter (fun entry => !c.masks entry.1 entry.2)).map Prod.snd

/-- The copy of a value, within the containers of `path` and with room for so many more of them. -/
def copy : ℕ → Finset ι → Item ι ε σ → Tree ε κ σ
  | _,_,.none => .none
  | _,_,.scalar value => .scalar value
  | _,_,.str text => .str (c.scrubText text)
  | _,_,.bytes data => ((c.scrubBytes data).map Tree.str).getD (.bytes data)
  | _,_,.exception e => .exception e
  | 0,_,.container _ => .str cyclePlaceholder
  | room + 1,path,.container i =>
    if i ∈ path then .str cyclePlaceholder
    else
      match g.container i with
      | .list items => .list (items.map (copy room (insert i path)))
      | .tuple items => .tuple (items.map (copy room (insert i path)))
      | .dict entries => .dict (entries.map (fun entry =>
          (entry.1,if c.masks entry.1 entry.2 then .str redacted else copy room (insert i path) entry.2)))

/-- An exception that is met, within the containers of `path`, and the frames left when its text is scrubbed. -/
structure Task (ι ε : Type) where
  exception : ε
  path : Finset ι
  frames : ℕ

/-- The exceptions that are met in a value, which is walked into with so many frames left. -/
def tasks : ℕ → Finset ι → ℕ → Item ι ε σ → List (Task ι ε)
  | _,path,frames,.exception e => [⟨e,path,frames - 2⟩]
  | room + 1,path,frames,.container i =>
    if i ∈ path then [] else ((g.container i).walked c).flatMap (tasks room (insert i path) (frames - 1))
  | _,_,_,_ => []

/-- The frames suffice to walk into a value, its exceptions apart. -/
def Fits : ℕ → Finset ι → ℕ → Item ι ε σ → Prop
  | _,_,frames,.exception _ => 2 ≤ frames
  | room + 1,path,frames,.container i =>
    1 ≤ frames ∧ (i ∉ path → ∀ x ∈ (g.container i).walked c, Fits room (insert i path) (frames - 1) x)
  | _,_,frames,_ => 1 ≤ frames

namespace Task
variable (t : Task ι ε)

def args : Item ι ε σ := .container (g.exception t.exception).args

def inArgs : List (Task ι ε) := tasks g c maxScrubDepth t.path (t.frames - 1) (t.args g)

def linked : List (Task ι ε) :=
  (g.exception t.exception).linked.reverse.map (fun e => ⟨e,t.path,t.frames⟩)

/-- The tasks that an exception leads to, in the order of the walk. -/
def below : List (Task ι ε) := t.inArgs g c ++ t.linked g

def fits : Prop := 1 ≤ t.frames ∧ Fits g c maxScrubDepth t.path (t.frames - 1) (t.args g)

def fields : Scrubbed ι ε κ σ :=
  scrubbedFields g c t.exception (copy g c maxScrubDepth t.path (t.args g))

end Task

def assigned (store : ε → Option (Scrubbed ι ε κ σ)) : List (Task ι ε) → ε → Option (Scrubbed ι ε κ σ)
  | [] => store
  | t :: rest => assigned (Function.update store t.exception (some (t.fields g c))) rest

variable [Fintype ε]

abbrev walkTasks (ts : List (Task ι ε)) (excs : Finset ε) : List (Task ι ε) × Finset ε :=
  walk Task.exception (Task.below g c) ts excs

def AllFit (ts : List (Task ι ε)) (excs : Finset ε) : Prop := ∀ t ∈ (walkTasks g c ts excs).1, t.fits g c

/-- The state in which the containers of `path` are walked, behind the tasks. -/
def behind (path : Finset ι) (ts : List (Task ι ε)) (excs : Finset ε) (store : ε → Option (Scrubbed ι ε κ σ)) :
    State ι ε κ σ :=
  ⟨path.disjSum (walkTasks g c ts excs).2,assigned g c store (walkTasks g c ts excs).1⟩

section Rules
variable {g c} {ts rest : List (Task ι ε)} {t : Task ι ε} {path : Finset ι} {excs : Finset ε}
variable {store : ε → Option (Scrubbed ι ε κ σ)}

omit [Fintype ε] in
theorem assigned_append (ts rest : List (Task ι ε)) (store : ε → Option (Scrubbed ι ε κ σ)) :
    assigned g c store (ts ++ rest) = assigned g c (assigned g c store ts) rest := by
  induction ts generalizing store with
  | nil => rfl
  | cons t ts ih => exact ih _

omit [Fintype ε] in
theorem assigned_of_ne {e : ε} (h : ∀ t ∈ ts, t.exception ≠ e) : assigned g c store ts e = store e := by
  induction ts generalizing store with
  | nil => rfl
  | cons t ts ih =>
    obtain ⟨ht,hts⟩ := List.forall_mem_cons.mp h
    rw [assigned,ih hts,Function.update_of_ne ht.symm]

omit [Fintype ε] in
theorem assigned_update {e : ε} (h : ∀ t ∈ ts, t.exception ≠ e) (fields : Option (Scrubbed ι ε κ σ)) :
    assigned g c (Function.update store e fields) ts = Function.update (assigned g c store ts) e fields := by
  induction ts generalizing store with
  | nil => rfl
  | cons t ts ih =>
    obtain ⟨ht,hts⟩ := List.forall_mem_cons.mp h
    rw [assigned,assigned,Function.update_comm ht.symm,ih hts]

theorem allFit_append : AllFit g c (ts ++ rest) excs ↔
    AllFit g c ts excs ∧ AllFit g c rest (walkTasks g c ts excs).2 := by
  simp [AllFit,walk_append,or_imp,forall_and]

theorem behind_append : behind g c path (ts ++ rest) excs store =
    behind g c path rest (walkTasks g c ts excs).2 (assigned g c store (walkTasks g c ts excs).1) := by
  simp only [behind,walk_append,assigned_append]

theorem allFit_nil : AllFit g c [] excs := by
  simp [AllFit]

theorem behind_nil : behind g c path [] excs store = ⟨path.disjSum excs,store⟩ := by
  simp [behind,assigned]

theorem allFit_of_mem (h : t.exception ∈ excs) : AllFit g c (t :: rest) excs ↔ AllFit g c rest excs := by
  rw [AllFit,walkTasks,walk_of_mem h]
  rfl

theorem behind_of_mem (h : t.exception ∈ excs) :
    behind g c path (t :: rest) excs store = behind g c path rest excs store := by
  rw [behind,walkTasks,walk_of_mem h]
  rfl

theorem allFit_of_notMem (h : t.exception ∉ excs) : AllFit g c (t :: rest) excs ↔
    (t.fits g c ∧ AllFit g c (t.inArgs g c) (insert t.exception excs)) ∧
      AllFit g c (t.linked g ++ rest) (walkTasks g c (t.inArgs g c) (insert t.exception excs)).2 := by
  rw [and_assoc,← allFit_append,AllFit,walkTasks,walk_of_notMem h,List.forall_mem_cons,Task.below,List.append_assoc]
  rfl

theorem behind_of_notMem (h : t.exception ∉ excs) : behind g c path (t :: rest) excs store =
    behind g c path (t.linked g ++ rest) (walkTasks g c (t.inArgs g c) (insert t.exception excs)).2
      (assigned g c (Function.update store t.exception (some (t.fields g c)))
        (walkTasks g c (t.inArgs g c) (insert t.exception excs)).1) := by
  rw [← behind_append,behind,walkTasks,walk_of_notMem h,Task.below,List.append_assoc]
  rfl

omit [Fintype ε] in
theorem insert_inl_disjSum (i : ι) (path : Finset ι) (excs : Finset ε) :
    insert (Sum.inl i) (path.disjSum excs) = (insert i path).disjSum excs := by
  ext x
  cases x <;> simp

omit [Fintype ε] in
theorem insert_inr_disjSum (e : ε) (path : Finset ι) (excs : Finset ε) :
    insert (Sum.inr e) (path.disjSum excs) = path.disjSum (insert e excs) := by
  ext x
  cases x <;> simp

theorem discard_behind {i : ι} (h : i ∉ path) :
    (behind g c (insert i path) ts excs store).discard (.inl i) = behind g c path ts excs store := by
  rw [State.discard,behind,← insert_inl_disjSum,Finset.erase_insert (by simpa using h)]
  rfl

theorem mapState_ends {α β : Type} {P : α → Prop} {parts : α → List (Task ι ε)} {y : α → β}
    {f : α → State ι ε κ σ → Except Failure (β × State ι ε κ σ)} (xs : List α) (excs : Finset ε)
    (store : ε → Option (Scrubbed ι ε κ σ))
    (hf : ∀ x excs store, EndsIf .recursionError (P x ∧ AllFit g c (parts x) excs)
      (y x,behind g c path (parts x) excs store) (f x ⟨path.disjSum excs,store⟩)) :
    EndsIf .recursionError ((∀ x ∈ xs, P x) ∧ AllFit g c (xs.flatMap parts) excs)
      (xs.map y,behind g c path (xs.flatMap parts) excs store) (mapState f xs ⟨path.disjSum excs,store⟩) := by
  induction xs generalizing excs store with
  | nil =>
    rw [List.flatMap_nil,behind_nil]
    exact endsIf_of ⟨nofun,allFit_nil⟩
  | cons x xs ih =>
    rw [List.flatMap_cons,behind_append]
    refine ((hf x excs store).bind (fun _ => (ih _ _).bind_pure (fun p => (y x :: p.1,p.2)))).congr ?_
    rw [allFit_append,List.forall_mem_cons]
    tauto

end Rules

/-- A value is copied, if the frames suffice for it and for the exceptions that are entered from it. -/
def ValueEnds (frames : ℕ) : Prop :=
  ∀ (item : Item ι ε σ) (room depth : ℕ) (path : Finset ι) (excs : Finset ε)
    (store : ε → Option (Scrubbed ι ε κ σ)), room + depth = maxScrubDepth →
    EndsIf .recursionError (Fits g c room path frames item ∧ AllFit g c (tasks g c room path frames item) excs)
      (copy g c room path item,behind g c path (tasks g c room path frames item) excs store)
      (scrubValue g c frames item depth ⟨path.disjSum excs,store⟩)

/-- The exceptions in the args of one are entered before its fields are assigned. -/
def TextEnds (frames : ℕ) : Prop :=
  ∀ (e : ε) (path : Finset ι) (excs : Finset ε) (store : ε → Option (Scrubbed ι ε κ σ)), e ∉ excs →
    EndsIf .recursionError
      (Task.fits g c ⟨e,path,frames⟩ ∧ AllFit g c (Task.inArgs g c ⟨e,path,frames⟩) (insert e excs))
      (behind g c path (Task.inArgs g c ⟨e,path,frames⟩) (insert e excs)
        (Function.update store e (some (Task.fields g c ⟨e,path,frames⟩))))
      (scrubExceptionText g c frames e ⟨path.disjSum (insert e excs),store⟩)

def ChainEnds (frames : ℕ) : Prop :=
  ∀ (e : ε) (path : Finset ι) (excs : Finset ε) (store : ε → Option (Scrubbed ι ε κ σ)),
    EndsIf .recursionError (1 ≤ frames ∧ AllFit g c [⟨e,path,frames - 1⟩] excs)
      (behind g c path [⟨e,path,frames - 1⟩] excs store)
      (scrubExceptionChain g c frames e ⟨path.disjSum excs,store⟩)

section Induction
variable {g c} {frames : ℕ}

theorem textEnds_succ (h : ValueEnds g c frames) : TextEnds g c (frames + 1) := by
  intro e path excs store hnot
  have hvalue := h (.container (g.exception e).args) maxScrubDepth 0 path (insert e excs) store rfl
  have hnew : ∀ t ∈ (walkTasks g c (Task.inArgs g c ⟨e,path,frames + 1⟩) (insert e excs)).1, t.exception ≠ e := by
    rintro t ht rfl
    exact notMem_of_walk ht (Finset.mem_insert_self _ _)
  unfold scrubExceptionText
  rw [behind,assigned_update hnew]
  have hends := hvalue.bind_pure (fun p => p.2.assign e (scrubbedFields g c e p.1))
  exact hends.congr (and_congr_left (fun _ => (and_iff_right (Nat.le_add_left _ _)).symm))

def linksLeft (g : Graph ι ε κ σ) (excs : Finset ε) : ℕ := ∑ e ∈ excsᶜ, (g.exception e).linked.length

omit [DecidableEq ι] in
theorem linksLeft_insert {e : ε} {excs excs' : Finset ε} (h : e ∉ excs) (hsub : insert e excs ⊆ excs') :
    (g.exception e).linked.length + linksLeft g excs' ≤ linksLeft g excs := by
  have hmem : e ∈ excsᶜ := Finset.mem_compl.mpr h
  have hsub' : excs'ᶜ ⊆ excsᶜ.erase e := by
    rw [← Finset.compl_insert]
    exact Finset.compl_subset_compl.mpr hsub
  calc (g.exception e).linked.length + linksLeft g excs'
      ≤ (g.exception e).linked.length + ∑ e ∈ excsᶜ.erase e, (g.exception e).linked.length :=
        Nat.add_le_add_left (Finset.sum_le_sum_of_subset hsub') _
    _ = linksLeft g excs := Finset.add_sum_erase _ (fun e => (g.exception e).linked.length) hmem

/-- The loop ends: a pass either drops an exception or pushes links that were not pushed before. -/
theorem scrubPending_ends (h : TextEnds g c frames) (path : Finset ι) {passes : ℕ} {pending : List ε} {excs : Finset ε}
    {store : ε → Option (Scrubbed ι ε κ σ)} (hpasses : pending.length + linksLeft g excs ≤ passes) :
    EndsIf .recursionError (AllFit g c (pending.map (fun e => ⟨e,path,frames⟩)) excs)
      (behind g c path (pending.map (fun e => ⟨e,path,frames⟩)) excs store)
      (scrubPending g (fun current s => scrubExceptionText g c frames current s) passes pending
        ⟨path.disjSum excs,store⟩) := by
  induction passes generalizing pending excs store with
  | zero =>
    have hnil : pending = [] := List.length_eq_zero_iff.mp (by omega)
    subst hnil
    rw [List.map_nil,behind_nil]
    exact endsIf_of allFit_nil
  | succ passes ih =>
    cases pending with
    | nil =>
      rw [List.map_nil,behind_nil]
      exact endsIf_of allFit_nil
    | cons e rest =>
      rw [List.map_cons,scrubPending]
      rw [List.length_cons] at hpasses
      by_cases hmem : e ∈ excs
      · rw [if_pos (Finset.inr_mem_disjSum.mpr hmem),behind_of_mem hmem]
        exact (ih (by omega)).congr (allFit_of_mem hmem).symm
      · rw [if_neg (fun h => hmem (Finset.inr_mem_disjSum.mp h)),behind_of_notMem hmem]
        have hsub : insert e excs ⊆ (walkTasks g c (Task.inArgs g c ⟨e,path,frames⟩) (insert e excs)).2 :=
          subset_walk
        have hlinks := linksLeft_insert (g := g) hmem hsub
        have hstate : State.add (⟨path.disjSum excs,store⟩ : State ι ε κ σ) (.inr e) =
            ⟨path.disjSum (insert e excs),store⟩ := by
          rw [State.add,insert_inr_disjSum]
        rw [hstate]
        refine ((h e path excs store hmem).bind (fun _ => ?_)).congr (allFit_of_notMem hmem).symm
        rw [Task.linked,← List.map_append]
        refine ih ?_
        rw [List.length_append,List.length_reverse]
        dsimp only
        omega

theorem chainEnds_succ (h : TextEnds g c frames) : ChainEnds g c (frames + 1) := by
  intro e path excs store
  have hpasses : [e].length + linksLeft g excs ≤ passes g :=
    Nat.add_le_add_left (Finset.sum_le_sum_of_subset (Finset.subset_univ _)) 1
  unfold scrubExceptionChain
  exact (scrubPending_ends h path hpasses).congr (and_iff_right (Nat.le_add_left _ _)).symm

omit [DecidableEq ι] [DecidableEq ε] [Fintype ε] in
theorem forall_walked_dict {entries : List (κ × Item ι ε σ)} {P : Item ι ε σ → Prop} :
    (∀ x ∈ (Container.dict entries : Container ι ε κ σ).walked c, P x) ↔
      ∀ entry ∈ entries, c.masks entry.1 entry.2 = false → P entry.2 := by
  simp only [Container.walked,List.mem_map,List.mem_filter]
  constructor
  · exact fun h entry hmem hmasks => h entry.2 ⟨entry,⟨hmem,by simp [hmasks]⟩,rfl⟩
  · rintro h x ⟨entry,⟨hmem,hmasks⟩,rfl⟩
    exact h entry hmem (by simpa using hmasks)

omit [DecidableEq ι] [DecidableEq ε] [Fintype ε] in
theorem flatMap_walked_dict (entries : List (κ × Item ι ε σ)) (parts : Item ι ε σ → List (Task ι ε)) :
    entries.flatMap (fun entry => if c.masks entry.1 entry.2 then [] else parts entry.2) =
      ((Container.dict entries : Container ι ε κ σ).walked c).flatMap parts := by
  unfold Container.walked
  induction entries with
  | nil => rfl
  | cons entry entries ih =>
    rw [List.flatMap_cons,ih]
    cases hmasks : c.masks entry.1 entry.2 with
    | true => simp [hmasks]
    | false => simp [hmasks]

theorem entry_ends (entry : κ × Item ι ε σ) {P : Prop} {path : Finset ι} {parts : List (Task ι ε)} {excs : Finset ε}
    {store : ε → Option (Scrubbed ι ε κ σ)} {y : Tree ε κ σ}
    {x : Except Failure (Tree ε κ σ × State ι ε κ σ)}
    (h : EndsIf .recursionError (P ∧ AllFit g c parts excs) (y,behind g c path parts excs store) x) :
    EndsIf .recursionError ((c.masks entry.1 entry.2 = false → P) ∧
        AllFit g c (if c.masks entry.1 entry.2 then [] else parts) excs)
      ((entry.1,if c.masks entry.1 entry.2 then .str redacted else y),
        behind g c path (if c.masks entry.1 entry.2 then [] else parts) excs store)
      (if c.masks entry.1 entry.2 then .ok ((entry.1,.str redacted),⟨path.disjSum excs,store⟩)
        else do
          let (y,t) ← x
          return ((entry.1,y),t)) := by
  cases c.masks entry.1 entry.2 with
  | true =>
    rw [if_pos rfl,if_pos rfl,if_pos rfl,behind_nil]
    exact endsIf_of ⟨nofun,allFit_nil⟩
  | false =>
    have hends := h.bind_pure (fun p => ((entry.1,p.1),p.2))
    exact hends.congr (and_congr_left (fun _ => ⟨fun h _ => h,fun h => h rfl⟩))

omit [DecidableEq ε] [Fintype ε] in
theorem fits_container_iff {i : ι} {room : ℕ} {path : Finset ι} (hnot : i ∉ path) :
    Fits g c (room + 1) path (frames + 1) (.container i) ↔
      ∀ x ∈ (g.container i).walked c, Fits g c room (insert i path) frames x :=
  ⟨fun h => h.2 hnot,fun h => ⟨Nat.le_add_left _ _,fun _ => h⟩⟩

/-- A container is walked with its id in the path, item by item or entry by entry. -/
theorem walked_ends (h : ValueEnds g c frames) {i : ι} {room depth : ℕ} {path : Finset ι} (hnot : i ∉ path)
    (excs : Finset ε) (store : ε → Option (Scrubbed ι ε κ σ)) (hroom : room + 1 + depth = maxScrubDepth) :
    EndsIf .recursionError (Fits g c (room + 1) path (frames + 1) (.container i) ∧
        AllFit g c (tasks g c (room + 1) path (frames + 1) (.container i)) excs)
      (copy g c (room + 1) path (.container i),
        behind g c path (tasks g c (room + 1) path (frames + 1) (.container i)) excs store)
      (scrubValue g c (frames + 1) (.container i) depth ⟨path.disjSum excs,store⟩) := by
  have hguard : ¬ (Sum.inl i ∈ path.disjSum excs ∨ maxScrubDepth ≤ depth) := by
    rintro (hseen | hdepth)
    · exact hnot (Finset.inl_mem_disjSum.mp hseen)
    · omega
  have hstate : State.add (⟨path.disjSum excs,store⟩ : State ι ε κ σ) (.inl i) =
      ⟨(insert i path).disjSum excs,store⟩ := by
    rw [State.add,insert_inl_disjSum]
  have hitem := fun (item : Item ι ε σ) (excs : Finset ε) (store : ε → Option (Scrubbed ι ε κ σ)) =>
    h item room (depth + 1) (insert i path) excs store (by omega)
  unfold scrubValue
  simp only [tasks,copy]
  rw [fits_container_iff hnot,if_neg hguard,if_neg hnot,if_neg hnot,hstate,← discard_behind hnot]
  cases g.container i with
  | list items =>
    have hends := (mapState_ends items excs store hitem).bind_pure
      (fun p => ((.list p.1 : Tree ε κ σ),p.2.discard (.inl i)))
    exact hends
  | tuple items =>
    have hends := (mapState_ends items excs store hitem).bind_pure
      (fun p => ((.tuple p.1 : Tree ε κ σ),p.2.discard (.inl i)))
    exact hends
  | dict entries =>
    have hentry := fun (entry : κ × Item ι ε σ) (excs : Finset ε) (store : ε → Option (Scrubbed ι ε κ σ)) =>
      entry_ends entry (hitem entry.2 excs store)
    have hends := (mapState_ends (f := fun entry s =>
        if c.masks entry.1 entry.2 then .ok ((entry.1,.str redacted),s)
        else do
          let (y,t) ← scrubValue g c frames entry.2 (depth + 1) s
          return ((entry.1,y),t)) entries excs store hentry).bind_pure
      (fun p => ((.dict p.1 : Tree ε κ σ),p.2.discard (.inl i)))
    rw [flatMap_walked_dict] at hends
    exact hends.congr (and_congr_left (fun _ => forall_walked_dict.symm))

/-- A container that closes a cycle, or lies too deep, is cut. -/
theorem valueEnds_container (h : ValueEnds g c frames) (i : ι) (room depth : ℕ) (path : Finset ι) (excs : Finset ε)
    (store : ε → Option (Scrubbed ι ε κ σ)) (hroom : room + depth = maxScrubDepth) :
    EndsIf .recursionError (Fits g c room path (frames + 1) (.container i) ∧
        AllFit g c (tasks g c room path (frames + 1) (.container i)) excs)
      (copy g c room path (.container i),behind g c path (tasks g c room path (frames + 1) (.container i)) excs store)
      (scrubValue g c (frames + 1) (.container i) depth ⟨path.disjSum excs,store⟩) := by
  cases room with
  | zero =>
    have hdepth : maxScrubDepth ≤ depth := by omega
    unfold scrubValue
    simp only [tasks,behind_nil,copy,Fits]
    rw [if_pos (Or.inr hdepth)]
    exact endsIf_of ⟨Nat.le_add_left _ _,allFit_nil⟩
  | succ room =>
    by_cases hmem : i ∈ path
    · unfold scrubValue
      simp only [tasks,copy,Fits]
      rw [if_pos (Or.inl (Finset.inl_mem_disjSum.mpr hmem)),if_pos hmem,if_pos hmem,behind_nil]
      exact endsIf_of ⟨⟨Nat.le_add_left _ _,fun hnot => absurd hmem hnot⟩,allFit_nil⟩
    · exact walked_ends h hmem excs store hroom

theorem valueEnds_succ (hvalue : ValueEnds g c frames) (hchain : ChainEnds g c frames) :
    ValueEnds g c (frames + 1) := by
  intro item room depth path excs store hroom
  cases item with
  | container i => exact valueEnds_container hvalue i room depth path excs store hroom
  | exception e =>
    simp only [tasks,copy,Fits,scrubValue]
    have hends := (hchain e path excs store).bind_pure (fun t => ((.exception e : Tree ε κ σ),t))
    exact hends.congr (and_congr_left (fun _ => (Nat.add_le_add_iff_right (n := 1)).symm))
  | none =>
    simp only [tasks,behind_nil,copy,Fits,scrubValue]
    exact endsIf_of ⟨Nat.le_add_left _ _,allFit_nil⟩
  | str text =>
    simp only [tasks,behind_nil,copy,Fits,scrubValue]
    exact endsIf_of ⟨Nat.le_add_left _ _,allFit_nil⟩
  | bytes data =>
    simp only [tasks,behind_nil,copy,Fits,scrubValue]
    exact endsIf_of ⟨Nat.le_add_left _ _,allFit_nil⟩
  | scalar value =>
    simp only [tasks,behind_nil,copy,Fits,scrubValue]
    exact endsIf_of ⟨Nat.le_add_left _ _,allFit_nil⟩

omit [DecidableEq ε] [Fintype ε] in
theorem one_le_of_fits {room : ℕ} {path : Finset ι} {item : Item ι ε σ} (h : Fits g c room path frames item) :
    1 ≤ frames := by
  cases item with
  | exception e =>
    have h2 : 2 ≤ frames := by simpa only [Fits] using h
    omega
  | container i =>
    cases room with
    | zero => exact h
    | succ room => exact h.1
  | none => simpa only [Fits] using h
  | str text => simpa only [Fits] using h
  | bytes data => simpa only [Fits] using h
  | scalar value => simpa only [Fits] using h

theorem ends_zero : ValueEnds g c 0 ∧ ChainEnds g c 0 ∧ TextEnds g c 0 := by
  refine ⟨?_,?_,?_⟩
  · intro item room depth path excs store hroom
    unfold scrubValue
    exact endsIf_error (fun h => absurd (one_le_of_fits h.1) (Nat.not_succ_le_zero 0))
  · intro e path excs store
    unfold scrubExceptionChain
    exact endsIf_error (fun h => absurd h.1 (Nat.not_succ_le_zero 0))
  · intro e path excs store hnot
    unfold scrubExceptionText
    exact endsIf_error (fun h => absurd h.1.1 (Nat.not_succ_le_zero 0))

/-- By induction on the frames: every call is made with one frame less. -/
theorem ends (frames : ℕ) : ValueEnds g c frames ∧ ChainEnds g c frames ∧ TextEnds g c frames := by
  induction frames with
  | zero => exact ends_zero
  | succ frames ih =>
    obtain ⟨hvalue,hchain,htext⟩ := ih
    exact ⟨valueEnds_succ hvalue hchain,chainEnds_succ htext,textEnds_succ hvalue⟩

end Induction

namespace Root

def fits (frames : ℕ) : Root ι ε σ → Prop
  | .strings data => Fits g c maxScrubDepth ∅ frames data
  | .exception _ => 1 ≤ frames

def tasks (frames : ℕ) : Root ι ε σ → List (Task ι ε)
  | .strings data => Redaction.tasks g c maxScrubDepth ∅ frames data
  | .exception e => [⟨e,∅,frames - 1⟩]

def entered (frames : ℕ) (root : Root ι ε σ) : List (Task ι ε) := (walkTasks g c (root.tasks g c frames) ∅).1

variable {g c}

theorem scrub_ends (root : Root ι ε σ) (frames : ℕ) :
    EndsIf .recursionError (root.fits g c frames ∧ ∀ t ∈ root.entered g c frames, t.fits g c)
      (copy g c maxScrubDepth ∅ root.item,behind g c ∅ (root.tasks g c frames) ∅ (fun _ => none))
      (root.scrub g c frames) := by
  obtain ⟨hvalue,hchain,-⟩ := ends (g := g) (c := c) frames
  have hstate : (⟨∅,fun _ => none⟩ : State ι ε κ σ) = ⟨(∅ : Finset ι).disjSum ∅,fun _ => none⟩ := by
    rw [Finset.empty_disjSum,Finset.map_empty]
  cases root with
  | strings data =>
    rw [scrub,hstate]
    exact hvalue data maxScrubDepth 0 ∅ ∅ (fun _ => none) rfl
  | exception e =>
    rw [scrub,hstate]
    exact (hchain e ∅ ∅ (fun _ => none)).bind_pure (fun t => ((.exception e : Tree ε κ σ),t))

end Root
end TruenasCE.Redaction
