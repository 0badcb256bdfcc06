import Mathlib.Data.List.AList
import Mathlib.Data.Finset.Dedup

/-! # Dictionaries

Dictionaries filled in a loop over items: an item with a key replaces the entry of that key,
an item without one is skipped.
-/
namespace TruenasCE.Library
variable {α κ β : Type*} [DecidableEq κ]

abbrev Dict (κ β : Type*) := AList (fun _ : κ => β)

def Dict.collectOne (key : α → Option κ) (value : α → β) (d : Dict κ β) (x : α) : Dict κ β :=
  match key x with
  | none => d
  | some k => d.insert k (value x)

def Dict.collect (key : α → Option κ) (value : α → β) (d : Dict κ β) (l : List α) : Dict κ β :=
  l.foldl (Dict.collectOne key value) d

namespace Dict
variable {key : α → Option κ} {value : α → β} {d : Dict κ β} {l : List α} {x : α} {k : κ}

theorem collect_cons : collect key value d (x :: l) = collect key value (collectOne key value d x) l := rfl

theorem mem_collectOne : k ∈ collectOne key value d x ↔ k ∈ d ∨ key x = some k := by
  unfold collectOne
  split
  · rename_i hx
    simp [hx]
  · rename_i k' hx
    rw [AList.mem_insert,hx,Option.some.injEq,or_comm,eq_comm]

theorem mem_collect : k ∈ collect key value d l ↔ k ∈ d ∨ k ∈ l.filterMap key := by
  induction l generalizing d with
  | nil => simp [collect]
  | cons x rest ih =>
    rw [collect_cons,ih,mem_collectOne]
    simp [or_assoc]

theorem lookup_collectOne_of_ne (h : key x ≠ some k) : (collectOne key value d x).lookup k = d.lookup k := by
  unfold collectOne
  split
  · rfl
  · rename_i k' hx
    refine AList.lookup_insert_ne (fun hk => h ?_)
    rw [hx,hk]

theorem lookup_collect_of_notMem (h : k ∉ l.filterMap key) : (collect key value d l).lookup k = d.lookup k := by
  induction l generalizing d with
  | nil => rfl
  | cons x rest ih =>
    simp only [List.mem_filterMap,not_exists,not_and] at h ih
    rw [collect_cons,ih (fun y hy => h y (by simp [hy]))]
    exact lookup_collectOne_of_ne (h x (by simp))

/-- The entry of a key that one item has comes from that item. -/
theorem lookup_collect (hx : x ∈ l) (hk : key x = some k) (h : ∀ y ∈ l, key y = some k → y = x) :
    (collect key value d l).lookup k = some (value x) := by
  induction l generalizing d with
  | nil => cases hx
  | cons y rest ih =>
    rw [collect_cons]
    by_cases hrest : x ∈ rest
    · exact ih hrest (fun z hz => h z (by simp [hz]))
    · obtain rfl : x = y := by simpa [hrest] using hx
      have hlast : k ∉ rest.filterMap key := by
        intro hmem
        obtain ⟨z,hz,hzk⟩ := List.mem_filterMap.mp hmem
        exact hrest (h z (by simp [hz]) hzk ▸ hz)
      rw [lookup_collect_of_notMem hlast,collectOne,hk]
      exact AList.lookup_insert _

/-- The entries of a dictionary whose keys satisfy `p`, collected into another one. -/
theorem lookup_collect_entries {γ : Type*} {p : κ → Prop} [DecidablePred p] {value : (Sigma fun _ : κ => γ) → β}
    (d : Dict κ β) (e : Dict κ γ) (k : κ) :
    (collect (fun x => if p x.1 then some x.1 else none) value d e.entries).lookup k =
      if p k then ((e.lookup k).map (fun v => value ⟨k,v⟩)).or (d.lookup k) else d.lookup k := by
  have hkey : ∀ x : Sigma fun _ : κ => γ, (if p x.1 then some x.1 else none) = some k ↔ p x.1 ∧ x.1 = k := by
    intro x
    split <;> simp_all
  by_cases hp : p k
  · rw [if_pos hp]
    cases hv : e.lookup k with
    | none =>
      refine lookup_collect_of_notMem (fun hmem => ?_)
      obtain ⟨x,hx,hxk⟩ := List.mem_filterMap.mp hmem
      obtain ⟨_,rfl⟩ := (hkey x).mp hxk
      exact AList.lookup_eq_none.mp hv (List.mem_map_of_mem hx)
    | some v =>
      refine lookup_collect (AList.mem_lookup_iff.mp hv) ((hkey _).mpr ⟨hp,rfl⟩) (fun y hy hyk => ?_)
      obtain ⟨_,rfl⟩ := (hkey y).mp hyk
      have := e.nodupKeys.eq_of_mk_mem hy (AList.mem_lookup_iff.mp hv)
      rw [← this]
  · rw [if_neg hp]
    refine lookup_collect_of_notMem (fun hmem => ?_)
    obtain ⟨x,_,hxk⟩ := List.mem_filterMap.mp hmem
    obtain ⟨hpx,rfl⟩ := (hkey x).mp hxk
    exact hp hpx

/-- As many entries as there are different keys. -/
theorem length_keys_collect : (collect key value (∅ : Dict κ β) l).keys.length = (l.filterMap key).dedup.length := by
  refine List.Perm.length_eq (List.perm_of_nodup_nodup_toFinset_eq (AList.keys_nodup _) (List.nodup_dedup _) ?_)
  ext k
  rw [List.mem_toFinset,← AList.mem_keys,mem_collect]
  simp

/-- The dictionary without the keys. -/
def drop (ks : List κ) (d : Dict κ β) : Dict κ β := ks.foldl (fun d k => d.erase k) d

theorem lookup_drop (ks : List κ) (d : Dict κ β) (k : κ) :
    (drop ks d).lookup k = if k ∈ ks then none else d.lookup k := by
  induction ks generalizing d with
  | nil => simp [drop]
  | cons k' rest ih =>
    rw [drop,List.foldl_cons,← drop,ih]
    by_cases hrest : k ∈ rest
    · simp [hrest]
    · by_cases hk : k = k'
      · subst hk
        simp [AList.lookup_erase]
      · simp [hrest,hk,AList.lookup_erase_ne hk]

end Dict

/-- A key that two items of a list have occurs twice among the keys. -/
theorem two_le_count_filterMap {key : α → Option κ} {l : List α} {x y : α} {k : κ} (hx : x ∈ l) (hy : y ∈ l)
    (hne : x ≠ y)
    (hkx : key x = some k) (hky : key y = some k) : 2 ≤ (l.filterMap key).count k := by
  induction l with
  | nil => cases hx
  | cons z rest ih =>
    have hone : ∀ w ∈ rest, key w = some k → 1 ≤ (rest.filterMap key).count k := fun w hw hk =>
      List.count_pos_iff.mpr (List.mem_filterMap.mpr ⟨w,hw,hk⟩)
    rcases List.mem_cons.mp hx with rfl | hxr
    · have hrest := hone y ((List.mem_cons.mp hy).resolve_left (Ne.symm hne)) hky
      rw [List.filterMap_cons_some hkx,List.count_cons_self]
      omega
    · rcases List.mem_cons.mp hy with rfl | hyr
      · have hrest := hone x hxr hkx
        rw [List.filterMap_cons_some hky,List.count_cons_self]
        omega
      · have hsub : (rest.filterMap key).Sublist ((z :: rest).filterMap key) :=
          (List.sublist_cons_self z rest).filterMap key
        exact (ih hxr hyr).trans (hsub.count_le k)

end TruenasCE.Library
