import Mathlib.Data.List.Nodup

/-! # Lists of records with unique keys

Lookup by a key, and replacement of the record with a given key. A list may have several
keys; a replacement keeps a second key unique when no other record has the new one.
-/
namespace TruenasCE.Library
variable {α κ ι : Type*} [DecidableEq κ]

def lookupBy (key : α → κ) (l : List α) (k : κ) : Option α := l.find? (fun x => key x = k)

/-- Put `e` in the place of the record with its key. -/
def replaceBy (key : α → κ) (l : List α) (e : α) : List α := l.map (fun x => if key x = key e then e else x)

section Lookup
variable {key : α → κ} {l : List α} {k : κ} {e x : α}

theorem mem_of_lookupBy (h : lookupBy key l k = some e) : e ∈ l ∧ key e = k :=
  ⟨List.mem_of_find?_eq_some h,by simpa using List.find?_some h⟩

theorem lookupBy_eq_none_iff : lookupBy key l k = none ↔ ∀ e ∈ l, key e ≠ k := by
  simp [lookupBy]

theorem lookupBy_eq_some_iff (hn : (l.map key).Nodup) : lookupBy key l k = some e ↔ e ∈ l ∧ key e = k := by
  refine ⟨mem_of_lookupBy,fun ⟨he,hk⟩ => ?_⟩
  cases h : lookupBy key l k with
  | none => exact absurd hk (lookupBy_eq_none_iff.mp h e he)
  | some x =>
    obtain ⟨hx,hxk⟩ := mem_of_lookupBy h
    rw [List.inj_on_of_nodup_map hn hx he (hxk.trans hk.symm)]

theorem map_key_replaceBy : (replaceBy key l e).map key = l.map key := by
  rw [replaceBy,List.map_map]
  refine List.map_congr_left (fun x _ => ?_)
  by_cases hx : key x = key e <;> simp [hx]

theorem mem_replaceBy (h : x ∈ replaceBy key l e) : x = e ∨ (x ∈ l ∧ key x ≠ key e) := by
  obtain ⟨y,hy,hx⟩ := List.mem_map.mp h
  split at hx
  · exact Or.inl hx.symm
  · subst hx
    exact Or.inr ⟨hy,‹_›⟩

theorem lookupBy_replaceBy (k : κ) :
    lookupBy key (replaceBy key l e) k = if k = key e then (lookupBy key l k).map (fun _ =>
      e) else lookupBy key l k := by
  induction l with
  | nil => simp [lookupBy,replaceBy]
  | cons y rest ih =>
    simp only [replaceBy,List.map_cons,lookupBy,List.find?_cons] at ih ⊢
    by_cases hy : key y = key e
    · by_cases hk : k = key e
      · simp [hy,hk]
      · have : key e ≠ k := Ne.symm hk
        simpa [hy,hk,this] using ih
    · by_cases hyk : key y = k
      · subst hyk
        simp [hy]
      · simpa [hy,hyk] using ih

theorem nodup_replaceBy {other : α → ι} (hk : (l.map key).Nodup) (ho : (l.map other).Nodup)
    (h : ∀ x ∈ l, other x = other e → key x = key e) : ((replaceBy key l e).map other).Nodup := by
  induction l with
  | nil => simp [replaceBy]
  | cons y rest ih =>
    obtain ⟨hky,hkr⟩ := List.nodup_cons.mp hk
    obtain ⟨hoy,hor⟩ := List.nodup_cons.mp ho
    refine List.nodup_cons.mpr ⟨fun hm => ?_,ih hkr hor (fun x hx => h x (by simp [hx]))⟩
    obtain ⟨z,hz,hzo⟩ := List.mem_map.mp hm
    have hz' : z = e ∨ (z ∈ rest ∧ key z ≠ key e) := mem_replaceBy hz
    by_cases hy : key y = key e
    · simp only [hy,if_true] at hzo
      rcases hz' with rfl | ⟨hz',hne⟩
      · -- the replacement occurs once, since its key does
        obtain ⟨w,hw,he⟩ := List.mem_map.mp hz
        split at he
        · rename_i hwk
          exact hky (List.mem_map.mpr ⟨w,hw,hwk.trans hy.symm⟩)
        · subst he
          exact hky (List.mem_map.mpr ⟨w,hw,hy.symm⟩)
      · exact hne (h z (by simp [hz']) hzo)
    · simp only [hy,if_false] at hzo
      rcases hz' with rfl | ⟨hz',_⟩
      · exact hy (h y (by simp) hzo.symm)
      · exact hoy (List.mem_map.mpr ⟨z,hz',hzo⟩)

end Lookup
end TruenasCE.Library
