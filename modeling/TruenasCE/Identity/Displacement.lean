import TruenasCE.Identity.UniqueIds
import TruenasCE.Library.Precedence

/-! # The entities that a loop of renames removes

The loop removes an entity whose new unique id another one has at its turn. Who that is can be told from the registry
before the loop: an entity that is renamed later or not at all, or one that came to the same id at an earlier turn.
-/
namespace TruenasCE.Identity
open Library Migration

section Displaced
variable (new : String → Option String) (entryId : String) (l : List RegistryEntry)

/-- The loop has a new id for the entity. -/
def Renamed (e : RegistryEntry) : Prop := e.OfEntry entryId = true ∧ new e.uniqueId ≠ none

instance (e : RegistryEntry) : Decidable (Renamed new entryId e) := inferInstanceAs (Decidable (_ ∧ _))

def newKey (e : RegistryEntry) : Key := ⟨e.entityId.domain,domain,(renamed new e).uniqueId⟩

/-- Another entity has the new id from the start to the turn of `e`. -/
def Held (e : RegistryEntry) : Prop := ∃ x ∈ l, x.entityId ≠ e.entityId ∧ x.key = newKey new e ∧
  (Renamed new entryId x → ¬ Precedes l x e)

instance (e : RegistryEntry) : Decidable (Held new entryId l e) := inferInstanceAs (Decidable (∃ x ∈ l, _))

/-- The loop removes `e`. -/
def Displaced (e : RegistryEntry) : Prop := Renamed new entryId e ∧ (Held new entryId l e ∨
  ∃ x ∈ l, Precedes l x e ∧ Renamed new entryId x ∧ (renamed new x).key = newKey new e ∧ ¬ Held new entryId l x)

instance (e : RegistryEntry) : Decidable (Displaced new entryId l e) :=
  inferInstanceAs (Decidable (_ ∧ (_ ∨ ∃ x ∈ l, _)))

/-- What the loop leaves of `e`. -/
def outcome (e : RegistryEntry) : Option RegistryEntry :=
  if Displaced new entryId l e then none else if Renamed new entryId e then some (renamed new e) else some e

def displace : List RegistryEntry := l.filterMap (outcome new entryId l)

end Displaced

section Turns
variable {new : String → Option String} {entryId : String} {l p rest : List RegistryEntry} {reg s r : Registry}
variable {e x y : RegistryEntry}

theorem outcome_entityId (h : outcome new entryId l e = some y) : y.entityId = e.entityId := by
  unfold outcome at h
  split at h
  · cases h
  split at h <;> cases h
  · exact renamed_entityId
  · rfl

theorem mem_displace : y ∈ displace new entryId l ↔ ∃ e ∈ l, ¬ Displaced new entryId l e ∧
    ((e.OfEntry entryId = true ∧ y = renamed new e) ∨ (e.OfEntry entryId = false ∧ y = e)) := by
  unfold displace
  rw [List.mem_filterMap]
  refine exists_congr (fun e => and_congr_right (fun _ => ?_))
  unfold outcome
  by_cases hd : Displaced new entryId l e
  · simp [hd]
  by_cases hof : e.OfEntry entryId = true
  · by_cases hnew : new e.uniqueId = none
    · simp [hd,Renamed,hof,hnew,renamed_of_none,eq_comm]
    · simp [hd,Renamed,hof,hnew,eq_comm]
  · simp [hd,Renamed,hof,eq_comm]

/-- Of the entities that come to one id, the first that finds it free keeps it. -/
theorem exists_first (hn : l.Nodup) (h : ∃ x ∈ l, Precedes l x e ∧ Renamed new entryId x ∧
    (renamed new x).key = newKey new e ∧ ¬ Held new entryId l x) : ∃ x ∈ l, Precedes l x e ∧ Renamed new entryId x ∧
    (renamed new x).key = newKey new e ∧ ¬ Displaced new entryId l x := by
  obtain ⟨x,hx,hxe,hxr,hxk,hxh⟩ := h
  obtain ⟨q,t,rfl⟩ := List.append_of_mem (hxe.subset (by simp) : e ∈ l)
  have hxq : x ∈ q := (precedes_iff hn).mp hxe
  let Q : RegistryEntry → Bool := fun y => decide (Renamed new entryId y ∧ (renamed new y).key = newKey new e ∧
    ¬ Held new entryId (q ++ e :: t) y)
  have hQx : Q x = true := decide_eq_true ⟨hxr,hxk,hxh⟩
  obtain ⟨y,hy⟩ : ∃ y, q.find? Q = some y := Option.isSome_iff_exists.mp (List.find?_isSome.mpr ⟨x,hxq,hQx⟩)
  have hyq := List.mem_of_find?_eq_some hy
  have hQy : Q y = true := List.find?_some hy
  obtain ⟨hyr,hyk,hyh⟩ := of_decide_eq_true hQy
  refine ⟨y,List.mem_append_left _ hyq,precedes_of_mem hyq,hyr,hyk,fun hd => ?_⟩
  obtain ⟨z,_,hzy,hzr,hzk,hzh⟩ := hd.2.resolve_left hyh
  -- one that came to the id earlier would have been found
  have hnewKey : newKey new y = newKey new e := by
    rw [← hyk]
    have hplatform : (renamed new y).platform = domain := congrArg Key.platform hyk
    rw [newKey,RegistryEntry.key,hplatform,renamed_entityId]
  rw [hnewKey] at hzk
  have hzq : z ∈ q := by
    obtain ⟨q₁,q₂,rfl⟩ := List.append_of_mem hyq
    rw [List.append_assoc,List.cons_append] at hn hzy
    exact List.mem_append_left _ ((precedes_iff hn).mp hzy)
  have hzne : z ≠ y := by
    rintro rfl
    exact hzy.asymm hn hzy
  have hyz := (precedes_of_find hy hzq (decide_eq_true ⟨hzr,hzk,hzh⟩) hzne).of_sublist (List.sublist_append_left q (e :: t))
  exact hyz.asymm hn hzy

/-- The list after the turns of `p`. -/
def afterTurns (new : String → Option String) (entryId : String) (l p : List RegistryEntry) : List RegistryEntry :=
  l.filterMap (fun e => if e ∈ p then outcome new entryId l e else some e)

theorem mem_afterTurns : y ∈ afterTurns new entryId l p ↔ (y ∈ l ∧ y ∉ p) ∨
    ∃ e ∈ l, e ∈ p ∧ outcome new entryId l e = some y := by
  unfold afterTurns
  rw [List.mem_filterMap]
  constructor
  · rintro ⟨e,he,h⟩
    split at h
    · exact Or.inr ⟨e,he,‹_›,h⟩
    · cases h
      exact Or.inl ⟨he,‹_›⟩
  · rintro (⟨hy,hp⟩ | ⟨e,he,hp,h⟩)
    · exact ⟨y,hy,if_neg hp⟩
    · exact ⟨e,he,by rw [if_pos hp,h]⟩

/-- At the turn of `e` another entity has its new id exactly when `e` is displaced. -/
theorem displaced_iff_taken (hn : l.Nodup) (hp : ∀ x, x ∈ p ↔ x.OfEntry entryId = true ∧ Precedes l x e)
    (he : e ∈ l) (hids : (l.map RegistryEntry.entityId).Nodup) (hr : Renamed new entryId e) :
    Displaced new entryId l e ↔ ∃ y ∈ afterTurns new entryId l p, y.entityId ≠ e.entityId ∧ y.key = newKey new e := by
  constructor
  · rintro ⟨_,⟨x,hx,hne,hk,hstays⟩ | hfirst⟩
    · by_cases hxr : Renamed new entryId x
      · exact ⟨x,mem_afterTurns.mpr (Or.inl ⟨hx,fun hxp => hstays hxr ((hp x).mp hxp).2⟩),hne,hk⟩
      · refine ⟨x,mem_afterTurns.mpr ?_,hne,hk⟩
        by_cases hxp : x ∈ p
        · have hd : ¬ Displaced new entryId l x := fun hd => hxr hd.1
          exact Or.inr ⟨x,hx,hxp,by simp [outcome,hd,hxr]⟩
        · exact Or.inl ⟨hx,hxp⟩
    · obtain ⟨x,hx,hxe,hxr,hxk,hxd⟩ := exists_first hn hfirst
      have hne : x.entityId ≠ e.entityId := by
        intro hid
        obtain rfl := List.inj_on_of_nodup_map hids hx he hid
        exact hxe.asymm hn hxe
      refine ⟨renamed new x,mem_afterTurns.mpr (Or.inr ⟨x,hx,(hp x).mpr ⟨hxr.1,hxe⟩,?_⟩),?_,hxk⟩
      · simp [outcome,hxd,hxr]
      · rwa [renamed_entityId]
  · rintro ⟨y,hy,hne,hk⟩
    refine ⟨hr,?_⟩
    rcases mem_afterTurns.mp hy with ⟨hyl,hyp⟩ | ⟨x,hx,hxp,hout⟩
    · exact Or.inl ⟨y,hyl,hne,hk,fun hyr hye => hyp ((hp y).mpr ⟨hyr.1,hye⟩)⟩
    · rw [outcome_entityId hout] at hne
      unfold outcome at hout
      split at hout
      · cases hout
      rename_i hd
      split at hout <;> cases hout
      · rename_i hxr
        have hheld : ¬ Held new entryId l x := fun hh => hd ⟨hxr,Or.inl hh⟩
        exact Or.inr ⟨x,hx,((hp x).mp hxp).2,hxr,hk,hheld⟩
      · rename_i hxr
        exact Or.inl ⟨y,hx,hne,hk,fun h => absurd h hxr⟩

/-- The turns before that of `e`. -/
theorem mem_turns_iff (hn : l.Nodup) (h : l.filter (RegistryEntry.OfEntry entryId) = p ++ e :: rest) (x : RegistryEntry) :
    x ∈ p ↔ x.OfEntry entryId = true ∧ Precedes l x e := by
  have hsub : (p ++ e :: rest).Sublist l := h ▸ List.filter_sublist
  have hnp : (p ++ e :: rest).Nodup := hsub.nodup hn
  constructor
  · intro hx
    have hmem : x ∈ l.filter (RegistryEntry.OfEntry entryId) := by simp [h,hx]
    exact ⟨(List.mem_filter.mp hmem).2,(precedes_of_mem hx).of_sublist hsub⟩
  · rintro ⟨hof,hxe⟩
    have hx : x ∈ p ++ e :: rest := h ▸ List.mem_filter.mpr ⟨hxe.subset (by simp),hof⟩
    exact (precedes_iff hnp).mp (hxe.restrict hn hsub hx (by simp))

theorem afterTurns_concat (hids : (l.map RegistryEntry.entityId).Nodup) (he : e ∈ l) (hep : e ∉ p) :
    afterTurns new entryId l (p ++ [e]) = (afterTurns new entryId l p).filterMap (fun y =>
      if y.entityId = e.entityId then outcome new entryId l e else some y) := by
  unfold afterTurns
  rw [List.filterMap_filterMap]
  refine List.filterMap_congr (fun x hx => ?_)
  by_cases hxe : x = e
  · subst hxe
    simp [hep]
  · have hid : x.entityId ≠ e.entityId := fun hid => hxe (List.inj_on_of_nodup_map hids hx he hid)
    by_cases hxp : x ∈ p
    · cases hout : outcome new entryId l x with
      | none => simp [hxp]
      | some y => simp [hxp,outcome_entityId hout,hid]
    · simp [hxp,hxe,hid]

theorem setUniqueId_self (he : e ∈ reg.entries) : reg.setUniqueId e.entityId e.uniqueId = none := by
  have hget : reg.get e.entityId = some e := Registry.get_eq_some_iff.mpr ⟨he,rfl⟩
  unfold Registry.setUniqueId
  rw [hget]
  exact dif_neg (fun h => h e he rfl)

theorem setUniqueId_entries {uniqueId : String} (he : e ∈ reg.entries)
    (h : raising reg (reg.setUniqueId e.entityId uniqueId) = .ok r) :
    uniqueId ≠ e.uniqueId ∧ r.entries = reg.entries.filterMap (fun y =>
      if y.entityId = e.entityId then some { e with uniqueId := uniqueId } else some y) := by
  have hget : reg.get e.entityId = some e := Registry.get_eq_some_iff.mpr ⟨he,rfl⟩
  constructor
  · rintro rfl
    rw [setUniqueId_self he] at h
    cases h
  · unfold Registry.setUniqueId at h
    rw [hget] at h
    simp only at h
    split at h
    · cases h
      change replaceBy _ _ _ = _
      rw [replaceBy,← List.filterMap_eq_map]
      refine List.filterMap_congr (fun y _ => ?_)
      by_cases hid : y.entityId = e.entityId <;> simp [hid]
    · cases h

theorem entries_of_turn (hids : (l.map RegistryEntry.entityId).Nodup) (he : e ∈ l) (hep : e ∉ p)
    (hof : e.OfEntry entryId = true) (hp : ∀ x, x ∈ p ↔ x.OfEntry entryId = true ∧ Precedes l x e)
    (hs : s.entries = afterTurns new entryId l p) (h : renameUniqueId new s e = .ok r) :
    r.entries = afterTurns new entryId l (p ++ [e]) := by
  have hes : e ∈ s.entries := by
    rw [hs]
    exact mem_afterTurns.mpr (Or.inl ⟨he,hep⟩)
  rw [afterTurns_concat hids he hep,← hs]
  cases hnew : new e.uniqueId with
  | none =>
    have hout : outcome new entryId l e = some e := by simp [outcome,Displaced,Renamed,hnew]
    have hr : s = r := by simpa [renameUniqueId,hnew] using h
    rw [← hr,hout]
    symm
    conv_rhs => rw [← List.filterMap_some (l := s.entries)]
    refine List.filterMap_congr (fun y hy => ?_)
    split
    · rename_i hid
      rw [Registry.eq_of_entityId hy hes hid]
    · rfl
  | some uniqueId =>
    have hren : Renamed new entryId e := ⟨hof,by simp [hnew]⟩
    have huid : renamed new e = { e with uniqueId := uniqueId } := renamed_of_some hnew
    have hkey : newKey new e = ⟨e.entityId.domain,domain,uniqueId⟩ := by rw [newKey,huid]
    have hiff := displaced_iff_taken (hids.of_map _) hp he hids hren
    rw [← hs,hkey] at hiff
    unfold renameUniqueId at h
    simp only [hnew] at h
    split at h
    · rename_i hnone
      have hd : ¬ Displaced new entryId l e := by
        rw [hiff]
        rintro ⟨y,hy,_,hk⟩
        have hsome := Registry.getEntityId_eq_some_iff.mpr ⟨y,hy,hk,rfl⟩
        rw [hnone] at hsome
        cases hsome
      rw [(setUniqueId_entries hes h).2]
      simp [outcome,hd,hren,huid]
    · rename_i id hid
      obtain ⟨y,hy,hk,hyid⟩ := Registry.getEntityId_eq_some_iff.mp hid
      split at h
      · rename_i hown
        obtain rfl := Registry.eq_of_entityId hy hes (hyid.trans hown)
        exact absurd (congrArg Key.uniqueId hk).symm (setUniqueId_entries hes h).1
      · rename_i hne
        have hd : Displaced new entryId l e := hiff.mpr ⟨y,hy,fun he' => hne (hyid ▸ he'),hk⟩
        cases h
        simp only [outcome,hd,if_true]
        change List.filter _ _ = _
        rw [← List.filterMap_eq_filter]
        refine List.filterMap_congr (fun z _ => ?_)
        by_cases hz : z.entityId = e.entityId <;> simp [hz]

theorem entries_of_turns (hids : (l.map RegistryEntry.entityId).Nodup)
    (hl : l.filter (RegistryEntry.OfEntry entryId) = p ++ rest) (hs : s.entries = afterTurns new entryId l p)
    (h : renameUniqueIds new s rest = .ok r) :
    r.entries = afterTurns new entryId l (l.filter (RegistryEntry.OfEntry entryId)) := by
  induction rest generalizing p s with
  | nil =>
    rw [renameUniqueIds,Except.ok.injEq] at h
    rw [← h,hs,hl,List.append_nil]
  | cons e rest ih =>
    rw [renameUniqueIds] at h
    split at h
    · cases h
    · rename_i t ht
      have hmem : e ∈ l.filter (RegistryEntry.OfEntry entryId) := by simp [hl]
      obtain ⟨he,hof⟩ := List.mem_filter.mp hmem
      have hnp : (p ++ e :: rest).Nodup := hl ▸ (hids.of_map _).filter _
      have hep : e ∉ p := fun hin => (List.nodup_append.mp hnp).2.2 e hin e (by simp) rfl
      exact ih (by simp [hl]) (entries_of_turn hids he hep hof (mem_turns_iff (hids.of_map _) hl) hs ht) h

/-- The loop over a config entry leaves what `displace` tells. -/
theorem entries_of_loop (h : renameUniqueIds new reg (entriesForConfigEntry reg entryId) = .ok r) :
    r.entries = displace new entryId reg.entries := by
  have hstart : reg.entries = afterTurns new entryId reg.entries [] := by simp [afterTurns]
  rw [entries_of_turns (p := []) reg.ids rfl hstart h]
  refine List.filterMap_congr (fun e he => ?_)
  split
  · rfl
  · rename_i hnot
    have hof : ¬ e.OfEntry entryId = true := fun hof => hnot (List.mem_filter.mpr ⟨he,hof⟩)
    simp [outcome,Displaced,Renamed,hof]

end Turns
end TruenasCE.Identity
