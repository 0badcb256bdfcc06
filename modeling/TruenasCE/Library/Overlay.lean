import Mathlib.Data.Finmap
import Mathlib.Data.List.DropRight
import Mathlib.Data.Option.Basic

/-! # Settings under updates that may leave them alone

What a setting is after a list of updates, and when two histories of a setting cannot be told
apart once a further update is through.
-/
namespace TruenasCE.Library
variable {α β κ : Type*}

/-- The last value that an update of the list gives. -/
def lastSome (f : β → Option α) : List β → Option α
  | [] => none
  | u :: rest => (lastSome f rest).or (f u)

theorem lastSome_eq_none_iff {f : β → Option α} {updates : List β} : lastSome f updates = none ↔
    ∀ u ∈ updates, f u = none := by
  induction updates with
  | nil => simp [lastSome]
  | cons u rest ih => simp [lastSome,Option.or_eq_none_iff,ih,and_comm]

theorem lastSome_eq_some_iff {f : β → Option α} {updates : List β} {a : α} : lastSome f updates = some a ↔
    ∃ before u after, updates = before ++ u :: after ∧ f u = some a ∧ ∀ v ∈ after, f v = none := by
  induction updates with
  | nil => simp [lastSome]
  | cons u rest ih =>
    rw [lastSome,Option.or_eq_some_iff,ih,lastSome_eq_none_iff]
    constructor
    · rintro (⟨before,v,after,rfl,hv,hafter⟩ | ⟨hrest,hu⟩)
      · exact ⟨u :: before,v,after,rfl,hv,hafter⟩
      · exact ⟨[],u,rest,rfl,hu,hrest⟩
    · rintro ⟨before,v,after,heq,hv,hafter⟩
      cases before with
      | nil =>
        obtain ⟨rfl,rfl⟩ := List.cons.inj heq
        exact Or.inr ⟨hafter,hv⟩
      | cons u' before =>
        obtain ⟨-,rfl⟩ := List.cons.inj heq
        exact Or.inl ⟨before,v,after,rfl,hv,hafter⟩

theorem lastSome_filterMap {γ : Type*} {f : γ → Option α} {g : β → Option γ} (updates : List β) :
    lastSome f (updates.filterMap g) = lastSome (fun u => (g u).bind f) updates := by
  induction updates with
  | nil => rfl
  | cons u rest ih =>
    cases h : g u with
    | none => rw [List.filterMap_cons_none h,ih,lastSome,h,Option.bind_none,Option.or_none]
    | some v => rw [List.filterMap_cons_some h,lastSome,ih,lastSome,h,Option.bind_some]

theorem foldl_eq_lastSome {σ : Type*} (step : σ → β → σ) (field : σ → α) (f : β → Option α)
    (hstep : ∀ s u, field (step s u) = (f u).getD (field s)) (updates : List β) (s : σ) :
    field (updates.foldl step s) = (lastSome f updates).getD (field s) := by
  induction updates generalizing s with
  | nil => rfl
  | cons u rest ih => rw [List.foldl_cons,ih,hstep,lastSome,Option.getD_or]

theorem lastSome_concat {f : β → Option α} (updates : List β) (u : β) :
    lastSome f (updates ++ [u]) = (f u).or (lastSome f updates) := by
  induction updates with
  | nil => simp [lastSome]
  | cons v rest ih => rw [List.cons_append,lastSome,ih,lastSome,Option.or_assoc]

/-- A field that some updates clear has the last value given since the field was cleared. -/
theorem foldl_eq_lastSome_rtakeWhile {σ : Type*} (step : σ → β → σ) (field : σ → Option α) (f : β → Option α)
    (keeps : β → Bool) (hkeep : ∀ s u, keeps u = true → field (step s u) = (f u).or (field s))
    (hclear : ∀ s u, keeps u = false → field (step s u) = none) {s : σ} (hs : field s = none) (updates : List β) :
    field (updates.foldl step s) = lastSome f (updates.rtakeWhile keeps) := by
  induction updates using List.reverseRecOn with
  | nil => exact hs
  | append_singleton updates u ih =>
    rw [List.foldl_append,List.foldl_cons,List.foldl_nil]
    cases hu : keeps u with
    | true => rw [hkeep _ _ hu,ih,List.rtakeWhile_concat_pos _ _ _ hu,lastSome_concat]
    | false => rw [hclear _ _ hu,List.rtakeWhile_concat_neg _ _ _ (by simp [hu]),lastSome]

/-- A further update hides the earlier ones if it gives a value itself. -/
theorem getD_getD_eq_iff {a : α} {given earlier : Option α} :
    given.getD (earlier.getD a) = given.getD a ↔ (given = none → ∀ x ∈ earlier, x = a) := by
  cases given <;> cases earlier <;> simp

variable [DecidableEq κ]

/-- A mapping that may be missing, updated with the entries of another. -/
def overlay (stored new : Option (Finmap (fun _ : κ => α))) : Option (Finmap (fun _ : κ => α)) :=
  match new with
  | none => stored
  | some new => some (new ∪ stored.getD ∅)

def entryAt (m : Option (Finmap (fun _ : κ => α))) (k : κ) : Option α := m.bind (fun m => m.lookup k)

theorem entryAt_overlay (stored new : Option (Finmap (fun _ : κ => α))) (k : κ) :
    entryAt (overlay stored new) k = (entryAt new k).or (entryAt stored k) := by
  cases new with
  | none => rfl
  | some new =>
    rw [overlay,entryAt,Option.bind_some]
    by_cases hk : k ∈ new
    · obtain ⟨v,hv⟩ := Finmap.mem_iff.mp hk
      rw [Finmap.lookup_union_left hk,hv,entryAt,Option.bind_some,hv,Option.some_or]
    · rw [Finmap.lookup_union_right hk,entryAt,Option.bind_some,Finmap.lookup_eq_none.mpr hk,Option.none_or]
      cases stored with
      | none => exact Finmap.lookup_empty k
      | some m => rfl

theorem ext_entryAt {m m' : Option (Finmap (fun _ : κ => α))} (hnone : m = none ↔ m' = none)
    (h : ∀ k, entryAt m k = entryAt m' k) : m = m' := by
  cases m with
  | none => exact (hnone.mp rfl).symm
  | some d =>
    cases m' with
    | none => cases hnone.mpr rfl
    | some d' => rw [Finmap.ext_lookup (fun k => h k)]

theorem overlay_eq_none_iff {stored new : Option (Finmap (fun _ : κ => α))} : overlay stored new = none ↔
    stored = none ∧ new = none := by
  cases new <;> simp [overlay]

theorem entryAt_foldl_overlay {f : β → Option (Finmap (fun _ : κ => α))} (updates : List β)
    (m : Option (Finmap (fun _ : κ => α))) (k : κ) :
    entryAt (updates.foldl (fun m u => overlay m (f u)) m) k = (lastSome (fun u =>
      entryAt (f u) k) updates).or (entryAt m k) := by
  induction updates generalizing m with
  | nil => rfl
  | cons u rest ih => rw [List.foldl_cons,ih,entryAt_overlay,lastSome,Option.or_assoc]

theorem foldl_overlay_eq_none_iff {f : β → Option (Finmap (fun _ : κ => α))} (updates : List β)
    (m : Option (Finmap (fun _ : κ => α))) :
    updates.foldl (fun m u => overlay m (f u)) m = none ↔ m = none ∧ ∀ u ∈ updates, f u = none := by
  induction updates generalizing m with
  | nil => simp
  | cons u rest ih => simp [ih,overlay_eq_none_iff,and_assoc]

/-- A further update hides the earlier ones exactly where each entry they gave is either given
again or was there before. -/
theorem overlay_foldl_eq_iff {f : β → Option (Finmap (fun _ : κ => α))} {updates : List β}
    {stored new : Option (Finmap (fun _ : κ => α))}
    (hf : ∀ u ∈ updates, f u ≠ some ∅) :
    overlay (updates.foldl (fun m u => overlay m (f u)) stored) new = overlay stored new ↔
      ∀ k, entryAt new k = none → ∀ v ∈ lastSome (fun u => entryAt (f u) k) updates, entryAt stored k = some v := by
  constructor
  · intro h k hk v hv
    have hentry := congrArg (fun m => entryAt m k) h
    simp only [entryAt_overlay,entryAt_foldl_overlay,hk,Option.none_or,Option.mem_def.mp hv,Option.some_or] at hentry
    exact hentry.symm
  · intro h
    refine ext_entryAt ?_ (fun k => ?_)
    · rw [overlay_eq_none_iff,overlay_eq_none_iff,foldl_overlay_eq_none_iff]
      refine ⟨fun ⟨⟨hs,_⟩,hn⟩ => ⟨hs,hn⟩,fun ⟨hs,hn⟩ => ⟨⟨hs,fun u hu => ?_⟩,hn⟩⟩
      -- an update with an entry would show it, and nothing is stored that could agree
      cases hfu : f u with
      | none => rfl
      | some d =>
        exfalso
        refine hf u hu (hfu.trans (congrArg some (Finmap.ext_lookup (fun k => ?_))))
        have hlast : lastSome (fun u => entryAt (f u) k) updates = none := by
          rw [Option.eq_none_iff_forall_not_mem]
          intro v hv
          have := h k (by rw [hn]; rfl) v hv
          rw [hs] at this
          cases this
        have hu' := lastSome_eq_none_iff.mp hlast u hu
        rw [hfu] at hu'
        rw [Finmap.lookup_empty]
        exact hu'
    · rw [entryAt_overlay,entryAt_overlay,entryAt_foldl_overlay]
      cases hk : entryAt new k with
      | some v => rfl
      | none =>
        rw [Option.none_or,Option.none_or]
        cases hl : lastSome (fun u => entryAt (f u) k) updates with
        | none => rfl
        | some v => rw [Option.some_or,h k hk v hl]

end TruenasCE.Library
