import Mathlib.Logic.Relation
import TruenasCE.Redaction.Walk

/-! # What scrubbing leaves of the secrets

Every value is copied, masked or cut, and of the exceptions in the result every text is scrubbed. This is so exactly if
the frames suffice for the walk, no exception is met within its own `args`, and no text sits in a field other than the
scrubbed ones.
-/
namespace TruenasCE.Redaction
open Library

variable {ι ε κ σ : Type}

def Scrubber.Clean (c : Scrubber κ) (text : String) : Prop := text = "" ∨ text ∈ Set.range c.scrubText

def Scrubber.CleanItem (c : Scrubber κ) : Item ι ε σ → Prop
  | .str text => c.Clean text
  | .bytes data => c.scrubText (c.decode data) = c.decode data
  | _ => True

def OsTexts.All {α : Type} (P : α → Prop) (texts : OsTexts α) : Prop :=
  P texts.strerror ∧ P texts.filename ∧ P texts.filename2

def Container.items : Container ι ε κ σ → List (Item ι ε σ)
  | .list items => items
  | .tuple items => items
  | .dict entries => entries.map Prod.snd

def Item.node : Item ι ε σ → Option (ι ⊕ ε)
  | .container i => some (.inl i)
  | .exception e => some (.inr e)
  | _ => Option.none

inductive Edge (g : Graph ι ε κ σ) : ι ⊕ ε → ι ⊕ ε → Prop
  | item {i : ι} {x : Item ι ε σ} {n : ι ⊕ ε} (hx : x ∈ (g.container i).items) (hn : x.node = some n) :
    Edge g (.inl i) n
  | args (e : ε) : Edge g (.inr e) (.inl (g.exception e).args)
  | linked {e e' : ε} (h : e' ∈ (g.exception e).linked) : Edge g (.inr e) (.inr e')

def Leads (g : Graph ι ε κ σ) : ι ⊕ ε → ι ⊕ ε → Prop := Relation.ReflTransGen (Edge g)

/-- A value and its copy, within the containers of `path` and below so many containers. -/
inductive Copies [DecidableEq ι] (g : Graph ι ε κ σ) (c : Scrubber κ) :
    Finset ι → ℕ → Item ι ε σ → Tree ε κ σ → Prop
  | none {path depth} : Copies g c path depth .none .none
  | scalar {path depth} (value : σ) : Copies g c path depth (.scalar value) (.scalar value)
  | str {path depth} (text : String) : Copies g c path depth (.str text) (.str (c.scrubText text))
  | bytes {path depth data} (h : c.scrubText (c.decode data) = c.decode data) :
    Copies g c path depth (.bytes data) (.bytes data)
  | bytesText {path depth} (data : List UInt8) :
    Copies g c path depth (.bytes data) (.str (c.scrubText (c.decode data)))
  | exception {path depth} (e : ε) : Copies g c path depth (.exception e) (.exception e)
  /-- Closing a cycle, or beyond the depth limit -/
  | cut {path depth i} (h : i ∈ path ∨ maxScrubDepth ≤ depth) :
    Copies g c path depth (.container i) (.str cyclePlaceholder)
  | list {path depth i items ys} (h : i ∉ path ∧ depth < maxScrubDepth) (hi : g.container i = .list items)
    (hlength : ys.length = items.length)
    (hcopies : ∀ p ∈ items.zip ys, Copies g c (insert i path) (depth + 1) p.1 p.2) :
    Copies g c path depth (.container i) (.list ys)
  | tuple {path depth i items ys} (h : i ∉ path ∧ depth < maxScrubDepth) (hi : g.container i = .tuple items)
    (hlength : ys.length = items.length)
    (hcopies : ∀ p ∈ items.zip ys, Copies g c (insert i path) (depth + 1) p.1 p.2) :
    Copies g c path depth (.container i) (.tuple ys)
  | dict {path depth i entries ys} (h : i ∉ path ∧ depth < maxScrubDepth) (hi : g.container i = .dict entries)
    (hkeys : ys.map Prod.fst = entries.map Prod.fst)
    (hmasked : ∀ p ∈ entries.zip ys, c.masks p.1.1 p.1.2 = true → p.2.2 = .str redacted)
    (hcopies : ∀ p ∈ entries.zip ys, c.masks p.1.1 p.1.2 = false →
      Copies g c (insert i path) (depth + 1) p.1.2 p.2.2) :
    Copies g c path depth (.container i) (.dict ys)

inductive Tree.Has (e : ε) : Tree ε κ σ → Prop
  | exception : Has e (.exception e)
  | list {ys y} (hy : y ∈ ys) (h : Has e y) : Has e (.list ys)
  | tuple {ys y} (hy : y ∈ ys) (h : Has e y) : Has e (.tuple ys)
  | dict {ys y} (hy : y ∈ ys) (h : Has e y.2) : Has e (.dict ys)

/-- The exceptions in a result, in what is left in the args of others, and linked to others -/
inductive Reachable (g : Graph ι ε κ σ) (tree : Tree ε κ σ) (store : ε → Option (Scrubbed ι ε κ σ)) : ε → Prop
  | result {e} (h : tree.Has e) : Reachable g tree store e
  | args {e e' fields y} (he : Reachable g tree store e) (hfields : store e = some fields) (hy : y ∈ fields.args)
    (h : y.Has e') : Reachable g tree store e'
  | linked {e e'} (he : Reachable g tree store e) (h : e' ∈ (g.exception e).linked) : Reachable g tree store e'

variable [DecidableEq ι] (g : Graph ι ε κ σ) (c : Scrubber κ)

/-- No text of an exception is left as it was. The containers of the path are those it was met in. -/
structure Masked (e : ε) (fields : Scrubbed ι ε κ σ) : Prop where
  args : ∃ path : Finset ι, (∀ i ∈ path, Leads g (.inl i) (.inr e)) ∧
    Copies g c path 0 (.container (g.exception e).args) (.tuple fields.args)
  reason : ∀ reason ∈ (g.exception e).reason, ∃ text ∈ fields.reason, c.Clean text
  osTexts : ∀ texts ∈ (g.exception e).osTexts, ∃ texts' ∈ fields.osTexts, texts'.All c.CleanItem
  otherTexts : ∀ text ∈ (g.exception e).otherTexts, c.Clean text

/-- Scrubbing ends without an error, and no secret survives in the result. -/
def Root.Masks [DecidableEq ε] [Fintype ε] (root : Root ι ε σ) (frames : ℕ) : Prop :=
  ∃ tree s, root.scrub g c frames = .ok (tree,s) ∧ Copies g c ∅ 0 root.item tree ∧
    ∀ e, Reachable g tree s.store e → ∃ fields, s.store e = some fields ∧ Masked g c e fields

section Copies
variable {g c}

theorem eq_of_mem_zip_map {α β : Type} {f : α → β} {xs : List α} {p : α × β} (h : p ∈ xs.zip (xs.map f)) :
    p.1 ∈ xs ∧ p.2 = f p.1 := by
  have hzip : xs.zip (xs.map f) = xs.map (fun x => (x,f x)) := by
    simpa using List.zip_map' (f := id) (g := f) (l := xs)
  rw [hzip] at h
  obtain ⟨x,hx,rfl⟩ := List.mem_map.mp h
  exact ⟨hx,rfl⟩

theorem copies_leaf (room depth : ℕ) (path : Finset ι) {item : Item ι ε σ} (h : ∀ i, item ≠ .container i) :
    Copies g c path depth item (copy g c room path item) := by
  cases item with
  | container i => exact absurd rfl (h i)
  | none =>
    rw [copy]
    exact .none
  | scalar value =>
    rw [copy]
    exact .scalar value
  | str text =>
    rw [copy]
    exact .str text
  | exception e =>
    rw [copy]
    exact .exception e
  | bytes data =>
    rw [copy,Scrubber.scrubBytes]
    split
    case isTrue heq => exact .bytes heq
    case isFalse hne => exact .bytesText data

theorem copies_copy {room depth : ℕ} (hroom : room + depth = maxScrubDepth) (path : Finset ι) (item : Item ι ε σ) :
    Copies g c path depth item (copy g c room path item) := by
  induction room generalizing path depth item with
  | zero =>
    cases item with
    | container i => exact .cut (Or.inr (by omega))
    | _ => exact copies_leaf _ _ _ nofun
  | succ room ih =>
    cases item with
    | container i =>
      rw [copy]
      by_cases hmem : i ∈ path
      · rw [if_pos hmem]
        exact .cut (Or.inl hmem)
      · have hlt : i ∉ path ∧ depth < maxScrubDepth := ⟨hmem,by omega⟩
        have hroom' : room + (depth + 1) = maxScrubDepth := by omega
        have hitem := fun (item : Item ι ε σ) => ih hroom' (insert i path) item
        rw [if_neg hmem]
        cases hi : g.container i with
        | list items =>
          refine .list hlt hi (List.length_map _) (fun p hp => ?_)
          rw [(eq_of_mem_zip_map hp).2]
          exact hitem p.1
        | tuple items =>
          refine .tuple hlt hi (List.length_map _) (fun p hp => ?_)
          rw [(eq_of_mem_zip_map hp).2]
          exact hitem p.1
        | dict entries =>
          refine .dict hlt hi ?_ (fun p hp hmasks => ?_) (fun p hp hmasks => ?_)
          · rw [List.map_map]
            rfl
          · rw [(eq_of_mem_zip_map hp).2]
            exact if_pos hmasks
          · rw [(eq_of_mem_zip_map hp).2]
            dsimp only
            rw [hmasks,if_neg Bool.false_ne_true]
            exact hitem p.1.2
    | _ => exact copies_leaf _ _ _ nofun

end Copies

section Has
variable {e e' : ε}

theorem not_has_none : ¬ Tree.Has e (.none : Tree ε κ σ) := nofun
theorem not_has_scalar (value : σ) : ¬ Tree.Has e (.scalar value : Tree ε κ σ) := nofun
theorem not_has_str (text : String) : ¬ Tree.Has e (.str text : Tree ε κ σ) := nofun

theorem not_has_bytes (data : List UInt8) : ¬ Tree.Has e (((c.scrubBytes data).map Tree.str).getD (.bytes data) :
    Tree ε κ σ) := by
  cases c.scrubBytes data <;> exact nofun

theorem has_exception_iff : Tree.Has e (.exception e' : Tree ε κ σ) ↔ e' = e := by
  constructor
  · rintro ⟨⟩
    rfl
  · rintro rfl
    exact .exception

theorem has_list_iff {ys : List (Tree ε κ σ)} : Tree.Has e (.list ys) ↔ ∃ y ∈ ys, y.Has e := by
  constructor
  · rintro (_ | ⟨hy,h⟩)
    exact ⟨_,hy,h⟩
  · rintro ⟨y,hy,h⟩
    exact .list hy h

theorem has_tuple_iff {ys : List (Tree ε κ σ)} : Tree.Has e (.tuple ys) ↔ ∃ y ∈ ys, y.Has e := by
  constructor
  · rintro (_ | _ | ⟨hy,h⟩)
    exact ⟨_,hy,h⟩
  · rintro ⟨y,hy,h⟩
    exact .tuple hy h

theorem has_dict_iff {ys : List (κ × Tree ε κ σ)} : Tree.Has e (.dict ys) ↔ ∃ y ∈ ys, y.2.Has e := by
  constructor
  · rintro (_ | _ | _ | ⟨hy,h⟩)
    exact ⟨_,hy,h⟩
  · rintro ⟨y,hy,h⟩
    exact .dict hy h

variable {g c}

omit [DecidableEq ι] in
theorem has_entries_iff {entries : List (κ × Item ι ε σ)} {f : Item ι ε σ → Tree ε κ σ} :
    Tree.Has e (.dict (entries.map (fun entry =>
        (entry.1,if c.masks entry.1 entry.2 then .str redacted else f entry.2)))) ↔
      ∃ x ∈ (Container.dict entries : Container ι ε κ σ).walked c, (f x).Has e := by
  simp only [has_dict_iff,Container.walked,List.mem_map,exists_exists_and_eq_and,List.mem_filter]
  refine exists_congr (fun entry => ?_)
  rw [and_assoc,and_congr_right_iff]
  intro _
  cases c.masks entry.1 entry.2 with
  | true => simp [not_has_str]
  | false => simp

theorem has_copy_iff (room : ℕ) (path : Finset ι) (frames : ℕ) (item : Item ι ε σ) :
    (copy g c room path item).Has e ↔ ∃ t ∈ tasks g c room path frames item, t.exception = e := by
  induction room generalizing path frames item with
  | zero =>
    cases item with
    | exception e' => simp [copy,tasks,has_exception_iff]
    | bytes data => simp [copy,tasks,not_has_bytes]
    | none => simp [copy,tasks,not_has_none]
    | scalar value => simp [copy,tasks,not_has_scalar]
    | str text => simp [copy,tasks,not_has_str]
    | container i => simp [copy,tasks,not_has_str]
  | succ room ih =>
    cases item with
    | exception e' => simp [copy,tasks,has_exception_iff]
    | bytes data => simp [copy,tasks,not_has_bytes]
    | none => simp [copy,tasks,not_has_none]
    | scalar value => simp [copy,tasks,not_has_scalar]
    | str text => simp [copy,tasks,not_has_str]
    | container i =>
      rw [copy,tasks]
      by_cases hmem : i ∈ path
      · rw [if_pos hmem,if_pos hmem]
        simp [not_has_str]
      · have hitems : ∀ xs : List (Item ι ε σ), (∃ x ∈ xs, (copy g c room (insert i path) x).Has e) ↔
            ∃ t ∈ xs.flatMap (tasks g c room (insert i path) (frames - 1)), t.exception = e := by
          intro xs
          simp only [ih _ (frames - 1),List.mem_flatMap]
          tauto
        rw [if_neg hmem,if_neg hmem,← hitems]
        cases g.container i with
        | list items => simp only [has_list_iff,List.mem_map,exists_exists_and_eq_and,Container.walked]
        | tuple items => simp only [has_tuple_iff,List.mem_map,exists_exists_and_eq_and,Container.walked]
        | dict entries => exact has_entries_iff

end Has

section Leads
variable {g c}

omit [DecidableEq ι] in
theorem mem_items_of_mem_walked {x : Item ι ε σ} {container : Container ι ε κ σ} (h : x ∈ container.walked c) :
    x ∈ container.items := by
  cases container with
  | list items => exact h
  | tuple items => exact h
  | dict entries =>
    obtain ⟨entry,hentry,rfl⟩ := List.mem_map.mp h
    exact List.mem_map_of_mem (List.mem_of_mem_filter hentry)

theorem leads_of_mem_tasks {room frames : ℕ} {path : Finset ι} {item : Item ι ε σ}
    (hpath : ∀ n ∈ item.node, ∀ i ∈ path, Leads g (.inl i) n) :
    ∀ t ∈ tasks g c room path frames item, ∀ i ∈ t.path, Leads g (.inl i) (.inr t.exception) := by
  induction room generalizing path frames item with
  | zero =>
    cases item with
    | exception e =>
      simp only [tasks,List.mem_singleton,forall_eq]
      exact hpath (.inr e) rfl
    | _ => simp [tasks]
  | succ room ih =>
    cases item with
    | exception e =>
      simp only [tasks,List.mem_singleton,forall_eq]
      exact hpath (.inr e) rfl
    | container i =>
      intro t ht
      rw [tasks] at ht
      split at ht
      case isTrue => cases ht
      case isFalse hnot =>
        obtain ⟨x,hx,ht⟩ := List.mem_flatMap.mp ht
        refine ih (fun n hn j hj => ?_) t ht
        have hedge : Edge g (.inl i) n := .item (mem_items_of_mem_walked hx) hn
        rcases Finset.mem_insert.mp hj with rfl | hj
        · exact .single hedge
        · exact (hpath (.inl i) rfl j hj).tail hedge
    | _ => simp [tasks]

variable [DecidableEq ε] [Fintype ε]

theorem leads_of_mem_entered {root : Root ι ε σ} {frames : ℕ} :
    ∀ t ∈ root.entered g c frames, ∀ i ∈ t.path, Leads g (.inl i) (.inr t.exception) := by
  refine forall_walk ?_ (fun t _ hpath t' ht' => ?_)
  · cases root with
    | strings data => exact leads_of_mem_tasks (fun n _ i hi => absurd hi (Finset.notMem_empty i))
    | exception e =>
      intro t ht i hi
      rw [List.mem_singleton.mp ht] at hi
      exact absurd hi (Finset.notMem_empty i)
  · rcases List.mem_append.mp ht' with hargs | hlinked
    · refine leads_of_mem_tasks (fun n hn i hi => ?_) t' hargs
      obtain rfl := Option.some.inj hn
      exact (hpath i hi).tail (.args _)
    · obtain ⟨e,he,rfl⟩ := List.mem_map.mp hlinked
      exact fun i hi => (hpath i hi).tail (.linked (List.mem_reverse.mp he))

end Leads

section Reachable
variable {g c} [DecidableEq ε]

theorem assigned_of_mem {ts : List (Task ι ε)} {t : Task ι ε} {store : ε → Option (Scrubbed ι ε κ σ)}
    (hnodup : (ts.map Task.exception).Nodup) (h : t ∈ ts) :
    assigned g c store ts t.exception = some (t.fields g c) := by
  induction ts generalizing store with
  | nil => cases h
  | cons t' ts ih =>
    rw [List.map_cons,List.nodup_cons] at hnodup
    rcases List.mem_cons.mp h with rfl | h
    · have hne : ∀ t' ∈ ts, t'.exception ≠ t.exception := fun t' ht' heq =>
        hnodup.1 (heq ▸ List.mem_map_of_mem ht')
      rw [assigned,assigned_of_ne hne,Function.update_self]
    · exact ih hnodup.2 h

omit [DecidableEq ε] in
theorem copy_args_of_mem {e : ε} {path : Finset ι} (h : (g.exception e).args ∈ path) :
    copy g c maxScrubDepth path (.container (g.exception e).args) = .str cyclePlaceholder := by
  rw [maxScrubDepth,copy,if_pos h]

omit [DecidableEq ε] in
theorem copy_args_of_notMem {e : ε} {path : Finset ι} (h : (g.exception e).args ∉ path) :
    ∃ ys, copy g c maxScrubDepth path (.container (g.exception e).args) = .tuple ys := by
  obtain ⟨items,hitems⟩ := g.args_tuple e
  rw [maxScrubDepth,copy,if_neg h,hitems]
  exact ⟨_,rfl⟩

omit [DecidableEq ε] in
theorem has_args_iff (t : Task ι ε) (e : ε) :
    (∃ y ∈ (t.fields g c).args, y.Has e) ↔ ∃ t' ∈ t.inArgs g c, t'.exception = e := by
  rw [Task.inArgs,← has_copy_iff]
  by_cases hmem : (g.exception t.exception).args ∈ t.path
  · have hcopy : copy g c maxScrubDepth t.path (t.args g) = .str cyclePlaceholder := copy_args_of_mem hmem
    rw [Task.fields,scrubbedFields,hcopy,Tree.assigned]
    simp [not_has_str]
  · obtain ⟨ys,hcopy⟩ := copy_args_of_notMem (c := c) hmem
    rw [Task.fields,scrubbedFields,Task.args,hcopy,Tree.assigned,has_tuple_iff]

variable [Fintype ε] {root : Root ι ε σ} {frames : ℕ}

omit [DecidableEq ε] [Fintype ε] in
theorem has_root_iff (root : Root ι ε σ) (frames : ℕ) (e : ε) :
    (copy g c maxScrubDepth ∅ root.item).Has e ↔ ∃ t ∈ root.tasks g c frames, t.exception = e := by
  cases root with
  | strings data => exact has_copy_iff maxScrubDepth ∅ frames data
  | exception e' =>
    rw [Root.item,copy,has_exception_iff]
    simp [Root.tasks]

theorem assigned_of_mem_entered {t : Task ι ε} (h : t ∈ root.entered g c frames) :
    assigned g c (fun _ => none) (root.entered g c frames) t.exception = some (t.fields g c) :=
  assigned_of_mem nodup_walk h

theorem exists_entered_iff {e : ε} : (∃ t ∈ root.entered g c frames, t.exception = e) ↔
    e ∈ (walkTasks g c (root.tasks g c frames) ∅).2 := by
  rw [walkTasks,mem_walk_iff]
  simp [Root.entered]

/-- The walk enters what is reachable in the result: by induction on the way there. -/
theorem exists_entered_of_reachable {e : ε} (h : Reachable g (copy g c maxScrubDepth ∅ root.item)
    (assigned g c (fun _ => none) (root.entered g c frames)) e) :
    ∃ t ∈ root.entered g c frames, t.exception = e := by
  rw [exists_entered_iff]
  induction h with
  | result h =>
    obtain ⟨t,ht,rfl⟩ := (has_root_iff root frames _).mp h
    exact mem_walk_of_mem ht
  | args he hfields hy h ih =>
    obtain ⟨t,ht,rfl⟩ := exists_entered_iff.mpr ih
    rw [assigned_of_mem_entered ht] at hfields
    obtain rfl := Option.some.inj hfields
    obtain ⟨t',ht',rfl⟩ := (has_args_iff t _).mp ⟨_,hy,h⟩
    exact mem_walk_of_mem_below ht (List.mem_append_left _ ht')
  | linked he h ih =>
    obtain ⟨t,ht,rfl⟩ := exists_entered_iff.mpr ih
    have hlinked := List.mem_map_of_mem (f := fun e => (⟨e,t.path,t.frames⟩ : Task ι ε)) (List.mem_reverse.mpr h)
    exact mem_walk_of_mem_below ht (List.mem_append_right _ hlinked)

theorem reachable_of_mem_entered {t : Task ι ε} (h : t ∈ root.entered g c frames) :
    Reachable g (copy g c maxScrubDepth ∅ root.item) (assigned g c (fun _ => none) (root.entered g c frames))
      t.exception := by
  refine forall_walk (Q := fun t => Reachable g _ _ t.exception) ?_ (fun t ht hreach t' ht' => ?_) t h
  · exact fun t ht => .result ((has_root_iff root frames _).mpr ⟨t,ht,rfl⟩)
  · rcases List.mem_append.mp ht' with hargs | hlinked
    · obtain ⟨y,hy,hhas⟩ := (has_args_iff t t'.exception).mpr ⟨t',hargs,rfl⟩
      exact .args hreach (assigned_of_mem_entered ht) hy hhas
    · obtain ⟨e,he,rfl⟩ := List.mem_map.mp hlinked
      exact .linked hreach (List.mem_reverse.mp he)

end Reachable

section Masked
variable {g c}

omit [DecidableEq ι] in
theorem cleanItem_scrubOsText (value : Item ι ε σ) : c.CleanItem (c.scrubOsText value) := by
  cases value with
  | str text => exact Or.inr ⟨text,rfl⟩
  | bytes data =>
    rw [Scrubber.scrubOsText,Scrubber.scrubBytes]
    split
    case isTrue heq => exact heq
    case isFalse hne => exact Or.inr ⟨_,rfl⟩
  | _ => trivial

theorem exists_mem_zip {α β : Type} {xs : List α} {ys : List β} {x : α} (hx : x ∈ xs)
    (hlength : ys.length = xs.length) : ∃ y ∈ ys, (x,y) ∈ xs.zip ys := by
  obtain ⟨k,hk,rfl⟩ := List.mem_iff_getElem.mp hx
  have hk' : k < ys.length := hlength ▸ hk
  refine ⟨ys[k],List.getElem_mem hk',List.mem_iff_getElem.mpr ⟨k,?_,List.getElem_zip⟩⟩
  rw [List.length_zip]
  exact Nat.lt_min.mpr ⟨hk,hk'⟩

theorem not_copies_dot {path : Finset ι} {depth : ℕ} {x : Item ι ε σ} {n : ι ⊕ ε} (hn : x.node = some n) :
    ¬ Copies g c path depth x (.str ".") := by
  generalize hy : (.str "." : Tree ε κ σ) = y
  intro h
  cases h with
  | cut => exact absurd (Tree.str.inj hy) (by decide)
  | str => cases hn
  | bytesText => cases hn
  | _ => cases hy

theorem not_copies_assigned_of_leads {e : ε} {path : Finset ι}
    (hleads : Leads g (.inl (g.exception e).args) (.inr e)) :
    ¬ Copies g c path 0 (.container (g.exception e).args)
      (.tuple (Tree.str cyclePlaceholder : Tree ε κ σ).assigned) := by
  obtain heq | ⟨n,hedge,-⟩ := hleads.cases_head
  · cases heq
  · generalize hys : (Tree.str cyclePlaceholder : Tree ε κ σ).assigned = ys
    intro h
    cases hedge with
    | item hx hn =>
      cases h with
      | tuple _ hi hlength hcopies =>
        rw [hi] at hx
        obtain ⟨y,hy,hmem⟩ := exists_mem_zip hx hlength
        have hdot : y = .str "." := by
          subst hys
          simpa [Tree.assigned,cyclePlaceholder] using hy
        subst hdot
        exact not_copies_dot hn (hcopies _ hmem)

omit [DecidableEq ι] in
theorem clean_scrubReason (e : ε) : ∀ reason ∈ (g.exception e).reason,
    ∃ text ∈ c.scrubReason (g.exception e).reason, c.Clean text := by
  intro reason hreason
  rw [Option.mem_def.mp hreason,Scrubber.scrubReason]
  by_cases hempty : reason = ""
  · rw [if_neg (not_not.mpr hempty)]
    exact ⟨reason,rfl,Or.inl hempty⟩
  · rw [if_pos hempty]
    exact ⟨c.scrubText reason,rfl,Or.inr ⟨reason,rfl⟩⟩

omit [DecidableEq ι] in
theorem clean_osTexts (e : ε) : ∀ texts ∈ (g.exception e).osTexts,
    ∃ texts' ∈ (g.exception e).osTexts.map (OsTexts.map c.scrubOsText), texts'.All c.CleanItem := by
  intro texts htexts
  refine ⟨_,Option.mem_map_of_mem _ htexts,?_⟩
  exact ⟨cleanItem_scrubOsText _,cleanItem_scrubOsText _,cleanItem_scrubOsText _⟩

theorem masked_fields_iff (t : Task ι ε) (hleads : ∀ i ∈ t.path, Leads g (.inl i) (.inr t.exception)) :
    Masked g c t.exception (t.fields g c) ↔
      (g.exception t.exception).args ∉ t.path ∧ ∀ text ∈ (g.exception t.exception).otherTexts, c.Clean text := by
  constructor
  · intro h
    refine ⟨fun hmem => ?_,h.otherTexts⟩
    obtain ⟨path,-,hcopies⟩ := h.args
    rw [Task.fields,scrubbedFields,Task.args,copy_args_of_mem hmem] at hcopies
    exact not_copies_assigned_of_leads (hleads _ hmem) hcopies
  · rintro ⟨hnot,hother⟩
    refine ⟨⟨t.path,hleads,?_⟩,clean_scrubReason _,clean_osTexts _,hother⟩
    have hcopies : Copies g c t.path 0 (.container (g.exception t.exception).args) _ := copies_copy rfl t.path _
    obtain ⟨ys,hcopy⟩ := copy_args_of_notMem (c := c) hnot
    rw [Task.fields,scrubbedFields,Task.args,hcopy,Tree.assigned,← hcopy]
    exact hcopies

end Masked

variable [DecidableEq ε] [Fintype ε]

/-- Scrubbing succeeds and leaves no secret exactly if the frames suffice for every exception that is entered, none is
met within its own args, and none holds a text in another field that is no output of the scrubber. -/
theorem masks_iff (root : Root ι ε σ) (frames : ℕ) : root.Masks g c frames ↔
    root.fits g c frames ∧ ∀ t ∈ root.entered g c frames, t.fits g c ∧
      (g.exception t.exception).args ∉ t.path ∧ ∀ text ∈ (g.exception t.exception).otherTexts, c.Clean text := by
  have hends := Root.scrub_ends (g := g) (c := c) root frames
  constructor
  · rintro ⟨tree,s,hok,-,hmasked⟩
    obtain ⟨⟨hroot,hfits⟩,heq⟩ := hends.ok_iff.mp hok
    obtain ⟨rfl,rfl⟩ := Prod.mk.inj heq
    refine ⟨hroot,fun t ht => ⟨hfits t ht,?_⟩⟩
    obtain ⟨fields,hfields,hmasked⟩ := hmasked t.exception (reachable_of_mem_entered ht)
    obtain rfl := Option.some.inj ((assigned_of_mem_entered ht).symm.trans hfields)
    exact (masked_fields_iff t (leads_of_mem_entered t ht)).mp hmasked
  · rintro ⟨hroot,hentered⟩
    refine ⟨_,_,hends.1 ⟨hroot,fun t ht => (hentered t ht).1⟩,copies_copy rfl ∅ root.item,fun e he => ?_⟩
    obtain ⟨t,ht,rfl⟩ := exists_entered_of_reachable he
    refine ⟨t.fields g c,assigned_of_mem_entered ht,?_⟩
    exact (masked_fields_iff t (leads_of_mem_entered t ht)).mpr (hentered t ht).2

/-- `ExceptionGroup("password=hunter2",[ValueError("bad")])` -/
def group : Graph (Fin 3) (Fin 2) String ℕ where
  container
    | 0 => .tuple [.str "password=hunter2",.container 1]
    | 1 => .list [.exception 1]
    | 2 => .tuple [.str "bad"]
  exception
    | 0 =>
      { args := 0, reason := none, osTexts := none, otherTexts := ["password=hunter2"], cause := none, context := none,
        members := [1] }
    | 1 =>
      { args := 2, reason := none, osTexts := none, otherTexts := [], cause := none, context := none, members := [] }
  args_tuple := Fin.forall_fin_two.mpr ⟨⟨_,rfl⟩,⟨_,rfl⟩⟩

/-- On the texts of `group`, what `scrub_text` does -/
def scrubber : Scrubber String where
  toRedact := fun key => key ∈ ["password","secret"]
  scrubText := fun text => if text = "password=hunter2" then "password=**REDACTED**" else text
  decode := fun _ => ""

/-- The message of a group is a copy of the first of its args, and stays. -/
theorem not_masks_group_message : ¬ (Root.exception 0).Masks group scrubber 1000 := by
  rintro ⟨tree,s,-,hcopies,hmasked⟩
  have hreach : Reachable group tree s.store 0 := by
    cases hcopies
    exact .result .exception
  obtain ⟨fields,-,hfields⟩ := hmasked 0 hreach
  rcases hfields.otherTexts "password=hunter2" (List.mem_singleton_self _) with hempty | ⟨text,htext⟩
  · exact absurd hempty (by decide)
  · simp only [scrubber] at htext
    split at htext
    case isTrue => exact absurd htext (by decide)
    case isFalse hne => exact hne htext

def nested (κ σ : Type) (n : ℕ) : Graph (Fin n) (Fin n) κ σ where
  container := fun i => .tuple (if h : i + 1 < n then [.exception ⟨i + 1,h⟩] else [])
  exception := fun e =>
    { args := e, reason := none, osTexts := none, otherTexts := [], cause := none, context := none, members := [] }
  args_tuple := fun _ => ⟨_,rfl⟩

section Nested
variable {c} {n : ℕ}

theorem walked_nested (e : Fin n) : ((nested κ σ n).container ((nested κ σ n).exception e).args).walked c =
    if h : e + 1 < n then [.exception ⟨e + 1,h⟩] else [] := rfl

theorem below_nested {t : Task (Fin n) (Fin n)} (hnot : t.exception ∉ t.path) :
    t.below (nested κ σ n) c = if h : t.exception + 1 < n then
      [⟨⟨t.exception + 1,h⟩,insert t.exception t.path,t.frames - 1 - 1 - 2⟩] else [] := by
  have hlinked : t.linked (nested κ σ n) = [] := rfl
  have hargs : ((nested κ σ n).exception t.exception).args = t.exception := rfl
  rw [Task.below,hlinked,List.append_nil,Task.inArgs,Task.args,maxScrubDepth,tasks,walked_nested,hargs,if_neg hnot]
  split
  case isTrue h => rw [List.flatMap_singleton,tasks]
  case isFalse h => rw [List.flatMap_nil]

theorem four_le_of_fits {t : Task (Fin n) (Fin n)} (hnot : t.exception ∉ t.path) (h : t.exception + 1 < n)
    (hfits : t.fits (nested κ σ n) c) : 4 ≤ t.frames := by
  have hargs := hfits.2
  rw [Task.args,maxScrubDepth] at hargs
  have hitem := hargs.2 hnot (.exception ⟨t.exception + 1,h⟩) (by simp [walked_nested,h])
  have htwo : 2 ≤ t.frames - 1 - 1 := by simpa only [Fits] using hitem
  omega

/-- Where an exception is met within the args of those before it only, the frames are used up on the way. -/
def OnTheWay (frames : ℕ) (t : Task (Fin n) (Fin n)) : Prop :=
  (∀ i ∈ t.path, i < t.exception) ∧ t.frames + t.exception ≤ frames

theorem OnTheWay.notMem {frames : ℕ} {t : Task (Fin n) (Fin n)} (h : OnTheWay frames t) : t.exception ∉ t.path :=
  fun hmem => lt_irrefl _ (h.1 _ hmem)

theorem onTheWay_of_mem_below {frames : ℕ} {t : Task (Fin n) (Fin n)} (ht : OnTheWay frames t)
    (hfits : t.fits (nested κ σ n) c) : ∀ t' ∈ t.below (nested κ σ n) c, OnTheWay frames t' := by
  intro t' ht'
  rw [below_nested ht.notMem] at ht'
  split at ht'
  case isFalse => cases ht'
  case isTrue h =>
    obtain rfl := List.mem_singleton.mp ht'
    have hfour := four_le_of_fits ht.notMem h hfits
    obtain ⟨hpath,hframes⟩ := ht
    refine ⟨fun i hi => ?_,?_⟩
    · rcases Finset.mem_insert.mp hi with rfl | hi
      · exact Fin.mk_lt_mk.mpr (Nat.lt_succ_self _)
      · exact (hpath i hi).trans (Fin.mk_lt_mk.mpr (Nat.lt_succ_self _))
    · dsimp only
      omega

/-- However far the recursion limit is, there are exceptions that `scrub_exception` raises on. -/
theorem scrub_nested (frames : ℕ) : (Root.exception (0 : Fin (frames + 1))).scrub (nested κ σ (frames + 1)) c frames =
    .error .recursionError := by
  refine (Root.scrub_ends _ frames).2 ?_
  rintro ⟨hroot,hfits⟩
  have hroot' : 1 ≤ frames := hroot
  have hway : ∀ t ∈ (Root.exception (0 : Fin (frames + 1))).entered (nested κ σ (frames + 1)) c frames,
      OnTheWay (frames - 1) t := by
    refine forall_walk ?_ (fun t ht hway => onTheWay_of_mem_below hway (hfits t ht))
    intro t ht
    obtain rfl := List.mem_singleton.mp ht
    exact ⟨fun i hi => absurd hi (Finset.notMem_empty i),by simp⟩
  -- All of the exceptions are entered, the last one without a frame.
  have hall : ∀ k (h : k < frames + 1), ∃ t ∈ (Root.exception (0 : Fin (frames + 1))).entered
      (nested κ σ (frames + 1)) c frames, t.exception = ⟨k,h⟩ := by
    intro k
    induction k with
    | zero =>
      intro h
      have hmem : (⟨0,∅,frames - 1⟩ : Task (Fin (frames + 1)) (Fin (frames + 1))) ∈
          (Root.exception 0).tasks (nested κ σ (frames + 1)) c frames := List.mem_cons_self
      exact exists_entered_iff.mpr (mem_walk_of_mem hmem)
    | succ k ih =>
      intro h
      obtain ⟨t,ht,hk⟩ := ih (by omega)
      have hnext : t.exception.val + 1 < frames + 1 := by
        rw [hk]
        exact h
      have hbelow : (⟨⟨t.exception + 1,hnext⟩,insert t.exception t.path,t.frames - 1 - 1 - 2⟩ :
          Task (Fin (frames + 1)) (Fin (frames + 1))) ∈ t.below (nested κ σ (frames + 1)) c := by
        rw [below_nested (hway t ht).notMem,dif_pos hnext]
        exact List.mem_cons_self
      have hmem := exists_entered_iff.mpr (mem_walk_of_mem_below ht hbelow)
      simpa only [hk] using hmem
  obtain ⟨t,ht,hlast⟩ := hall frames (Nat.lt_succ_self _)
  have hframes := (hway t ht).2
  rw [hlast] at hframes
  dsimp only at hframes
  omega

end Nested
/-- Scrubbing returns exactly if the recursion limit leaves a frame for every nested call, raises `RecursionError`
elsewhere, and no limit is enough for all nested exceptions. -/
theorem returns_iff_fits (g : Graph ι ε κ σ) (c : Scrubber κ) (root : Root ι ε σ) (frames : ℕ) :
    ((∃ r, root.scrub g c frames = .ok r) ↔ root.fits g c frames ∧ ∀ t ∈ root.entered g c frames, t.fits g c) ∧
    ((∃ r, root.scrub g c frames = .ok r) ∨ root.scrub g c frames = .error .recursionError) ∧
    (Root.exception (0 : Fin (frames + 1))).scrub (nested κ σ (frames + 1)) c frames = .error .recursionError := by
  have hends := Root.scrub_ends (g := g) (c := c) root frames
  by_cases hfits : root.fits g c frames ∧ ∀ t ∈ root.entered g c frames, t.fits g c
  · exact ⟨⟨fun _ => hfits,fun _ => ⟨_,hends.1 hfits⟩⟩,Or.inl ⟨_,hends.1 hfits⟩,scrub_nested frames⟩
  · have hraised := hends.2 hfits
    refine ⟨⟨fun ⟨r,hr⟩ => ?_,fun h => absurd h hfits⟩,Or.inr hraised,scrub_nested frames⟩
    rw [hraised] at hr
    cases hr

end TruenasCE.Redaction
