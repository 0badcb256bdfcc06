import Mathlib.Data.List.Nodup
import Mathlib.Logic.Function.Basic

/-! # Settling items on their targets

Items are placed at locations, no two at the same one. Each of a list of moves, taken
in order, puts its item on its target when that location is free and leaves the item
where it is otherwise. Which moves succeed depends on their order: a target held by an
item of an earlier move has been vacated, one held by an item of a later move has not.
-/
namespace TruenasCE.Library
variable {κ ℓ : Type*}

abbrev Placement (κ ℓ : Type*) := κ → Option ℓ

namespace Placement

def Free (p : Placement κ ℓ) (x : ℓ) : Prop := ∀ k, p k ≠ some x

/-- No two items share a location. -/
def Apart (p : Placement κ ℓ) : Prop := ∀ k k' x, p k = some x → p k' = some x → k = k'

/-- The location is held by an item that is not moved. -/
def HeldOutside (p : Placement κ ℓ) (ms : List (κ × ℓ)) (x : ℓ) : Prop := ∃ k, k ∉ ms.map Prod.fst ∧ p k = some x

section Settle
variable [DecidableEq κ] {p : Placement κ ℓ} {m : κ × ℓ} {ms : List (κ × ℓ)} {k : κ}

open Classical in
noncomputable def settleOne (p : Placement κ ℓ) (m : κ × ℓ) : Placement κ ℓ :=
  if p.Free m.2 then Function.update p m.1 (some m.2) else p

noncomputable def settle (p : Placement κ ℓ) (ms : List (κ × ℓ)) : Placement κ ℓ := ms.foldl settleOne p

@[simp] theorem settle_nil : settle p [] = p := rfl
@[simp] theorem settle_cons : settle p (m :: ms) = settle (settleOne p m) ms := rfl

theorem settleOne_of_free (h : p.Free m.2) : settleOne p m = Function.update p m.1 (some m.2) := if_pos h
theorem settleOne_of_not_free (h : ¬ p.Free m.2) : settleOne p m = p := if_neg h

theorem settleOne_of_ne (h : k ≠ m.1) : settleOne p m k = p k := by
  unfold settleOne
  split
  · exact Function.update_of_ne h _ _
  · rfl

theorem settle_of_notMem (h : k ∉ ms.map Prod.fst) : settle p ms k = p k := by
  induction ms generalizing p with
  | nil => rfl
  | cons a rest ih =>
    simp only [List.map_cons,List.mem_cons,not_or] at h
    rw [settle_cons,ih h.2,settleOne_of_ne h.1]

theorem Apart.settleOne (h : p.Apart) : (settleOne p m).Apart := by
  by_cases hf : p.Free m.2
  · rw [settleOne_of_free hf]
    intro k k' x hk hk'
    by_cases he : k = m.1 <;> by_cases he' : k' = m.1
    · rw [he,he']
    · subst he
      simp only [Function.update_self,Function.update_of_ne he'] at hk hk'
      exact absurd (hk'.trans hk.symm) (hf k')
    · subst he'
      simp only [Function.update_self,Function.update_of_ne he] at hk hk'
      exact absurd (hk.trans hk'.symm) (hf k)
    · simp only [Function.update_of_ne he,Function.update_of_ne he'] at hk hk'
      exact h k k' x hk hk'
  · rwa [settleOne_of_not_free hf]

theorem settleOne_self : Placement.settleOne p m m.1 = some m.2 ∨ Placement.settleOne p m m.1 = p m.1 := by
  unfold Placement.settleOne
  split
  · exact Or.inl (Function.update_self _ _ _)
  · exact Or.inr rfl

theorem settleOne_self_iff (h : p.Apart) : Placement.settleOne p m m.1 = some m.2 ↔ ∀ k, p k = some m.2 → k = m.1 := by
  by_cases hf : p.Free m.2
  · rw [settleOne_of_free hf]
    simp only [Function.update_self,true_iff]
    exact fun k hk => absurd hk (hf k)
  · rw [settleOne_of_not_free hf]
    refine ⟨fun hm k hk => h _ _ _ hk hm,fun hall => ?_⟩
    obtain ⟨k,hk⟩ : ∃ k, p k = some m.2 := by
      by_contra hn
      exact hf (fun k hk => hn ⟨k,hk⟩)
    rwa [← hall k hk]

theorem only_iff {a : κ × ℓ} (ms : List (κ × ℓ)) : (∀ k, p k = some a.2 → k = a.1) ↔
    ¬ p.HeldOutside (a :: ms) a.2 ∧ ∀ b ∈ ms, b.1 ≠ a.1 → p b.1 ≠ some a.2 := by
  refine ⟨fun h => ⟨?_,fun b _ hb hp => hb (h b.1 hp)⟩,fun ⟨ho,hb⟩ k hk => ?_⟩
  · rintro ⟨k,hk,hp⟩
    rw [h k hp] at hk
    exact hk (by simp)
  · by_contra hne
    by_cases hm : k ∈ ms.map Prod.fst
    · obtain ⟨b,hbm,rfl⟩ := List.mem_map.mp hm
      exact hb b hbm hne hk
    · exact ho ⟨k,by simp [hne,hm],hk⟩

theorem heldOutside_settleOne_iff {a : κ × ℓ} {x : ℓ} (h : settleOne p a a.1 = some a.2) (hx : x ≠ a.2) :
    (settleOne p a).HeldOutside ms x ↔ p.HeldOutside (a :: ms) x := by
  constructor
  · rintro ⟨k,hk,hp⟩
    have hne : k ≠ a.1 := by
      rintro rfl
      exact hx (Option.some.inj (hp.symm.trans h))
    rw [settleOne_of_ne hne] at hp
    exact ⟨k,by simp [hne,hk],hp⟩
  · rintro ⟨k,hk,hp⟩
    simp only [List.map_cons,List.mem_cons,not_or] at hk
    exact ⟨k,hk.2,(settleOne_of_ne hk.1).trans hp⟩

/-- All moves succeed exactly when no target is held by an item that is not moved, and none by
the item of a later move. -/
theorem settle_iff (h : p.Apart) (hk : (ms.map Prod.fst).Nodup) (ht : (ms.map Prod.snd).Nodup) :
    (∀ m ∈ ms, settle p ms m.1 = some m.2) ↔
      (∀ m ∈ ms, ¬ p.HeldOutside ms m.2) ∧ ms.Pairwise (fun a b => p b.1 ≠ some a.2) := by
  induction ms generalizing p with
  | nil => simp
  | cons a rest ih =>
    obtain ⟨hka,hkr⟩ := List.nodup_cons.mp hk
    obtain ⟨hta,htr⟩ := List.nodup_cons.mp ht
    have later : ∀ b ∈ rest, b.1 ≠ a.1 := fun b hb he => hka (he ▸ List.mem_map_of_mem hb)
    have targets : ∀ b ∈ rest, b.2 ≠ a.2 := fun b hb he => hta (he ▸ List.mem_map_of_mem hb)
    have hpair : rest.Pairwise (fun x y => Placement.settleOne p a y.1 ≠ some x.2) ↔
        rest.Pairwise (fun x y => p y.1 ≠ some x.2) := by
      refine List.Pairwise.iff_of_mem (fun {x y} _ hy => ?_)
      rw [settleOne_of_ne (later y hy)]
    have hself : settle p (a :: rest) a.1 = Placement.settleOne p a a.1 := by
      rw [settle_cons,settle_of_notMem hka]
    have hrest := ih (h.settleOne (m := a)) hkr htr
    rw [hpair] at hrest
    constructor
    · intro hall
      have ha : Placement.settleOne p a a.1 = some a.2 := hself ▸ hall a (by simp)
      obtain ⟨hout,hin⟩ := (only_iff rest).mp ((settleOne_self_iff h).mp ha)
      obtain ⟨hr,hp⟩ := hrest.mp (fun m hm => hall m (by simp [hm]))
      refine ⟨?_,List.pairwise_cons.mpr ⟨fun b hb => hin b hb (later b hb),hp⟩⟩
      rintro m hm
      rcases List.mem_cons.mp hm with rfl | hm
      · exact hout
      · exact fun ho => hr m hm ((heldOutside_settleOne_iff ha (targets m hm)).mpr ho)
    · rintro ⟨hout,hp⟩
      obtain ⟨hin,hp⟩ := List.pairwise_cons.mp hp
      have ha : Placement.settleOne p a a.1 = some a.2 :=
        (settleOne_self_iff h).mpr ((only_iff rest).mpr ⟨hout a (by simp),fun b hb _ => hin b hb⟩)
      have hr : ∀ m ∈ rest, settle (Placement.settleOne p a) rest m.1 = some m.2 := by
        refine hrest.mpr ⟨fun m hm ho => ?_,hp⟩
        exact hout m (by simp [hm]) ((heldOutside_settleOne_iff ha (targets m hm)).mp ho)
      intro m hm
      rcases List.mem_cons.mp hm with rfl | hm
      · exact hself.trans ha
      · exact hr m hm

/-- When no move's target is held by the item of another move, each move succeeds unless its
target is held by an item that is not moved. -/
theorem settle_or_heldOutside (h : p.Apart) (hk : (ms.map Prod.fst).Nodup) (ht : (ms.map Prod.snd).Nodup)
    (hm : ∀ a ∈ ms, ∀ b ∈ ms, p b.1 = some a.2 → b.1 = a.1) :
    ∀ m ∈ ms, settle p ms m.1 = some m.2 ∨ p.HeldOutside ms m.2 := by
  induction ms generalizing p with
  | nil => simp
  | cons a rest ih =>
    obtain ⟨hka,hkr⟩ := List.nodup_cons.mp hk
    obtain ⟨hta,htr⟩ := List.nodup_cons.mp ht
    have later : ∀ b ∈ rest, b.1 ≠ a.1 := fun b hb he => hka (he ▸ List.mem_map_of_mem hb)
    have targets : ∀ b ∈ rest, b.2 ≠ a.2 := fun b hb he => hta (he ▸ List.mem_map_of_mem hb)
    intro m hmem
    rcases List.mem_cons.mp hmem with rfl | hrest
    · rw [settle_cons,settle_of_notMem hka]
      by_cases ho : p.HeldOutside (m :: rest) m.2
      · exact Or.inr ho
      · refine Or.inl ((settleOne_self_iff h).mpr ((only_iff rest).mpr ⟨ho,fun b hb hne hp => ?_⟩))
        exact hne (hm m (by simp) b (by simp [hb]) hp)
    · rw [settle_cons]
      refine (ih h.settleOne hkr htr (fun x hx y hy hp => ?_) m hrest).imp id (fun ⟨k,hk',hp⟩ => ?_)
      · rw [settleOne_of_ne (later y hy)] at hp
        exact hm x (by simp [hx]) y (by simp [hy]) hp
      · -- the outside item is not that of move `a`: it is on its own target or where it was
        have hne : k ≠ a.1 := by
          rintro rfl
          rcases settleOne_self (p := p) (m := a) with ha | ha
          · exact targets m hrest (Option.some.inj (hp.symm.trans ha))
          · exact later m hrest (hm m hmem a (by simp) (ha.symm.trans hp)).symm
        rw [settleOne_of_ne hne] at hp
        exact ⟨k,by simp [hne,hk'],hp⟩

end Settle
end Placement
end TruenasCE.Library
