import Mathlib.Data.List.Perm.Basic
import TruenasCE.Identity.SecondRun

/-! # The order in which the migration of the formats finds the entities

The loop goes through the entities in the order of the registry. What it does with one of them
depends on who holds the new id at its turn, and another turn may have changed that.
-/
namespace TruenasCE.Identity
open Library Migration Cleanup

/-- No new id is the old id of another entity that moves as well, and entities with one new id find
it taken. -/
structure Undisputed (moves : RegistryEntry → String → Prop) (entryId : String) (reg : Registry) : Prop where
  settled : ∀ e ∈ entriesForConfigEntry reg entryId, ∀ x ∈ entriesForConfigEntry reg entryId,
    x.entityId.domain = e.entityId.domain → moves e x.uniqueId → ∀ new, ¬ moves x new
  unshared : ∀ e ∈ entriesForConfigEntry reg entryId, ∀ x ∈ entriesForConfigEntry reg entryId, x ≠ e →
    x.entityId.domain = e.entityId.domain → ∀ new, moves e new → moves x new →
      ∃ y ∈ reg.entries, y.key = ⟨e.entityId.domain,domain,new⟩

section Loop
variable {new : String → Option String} {reg r : Registry} {entryId : String} {e : RegistryEntry}
  {done : List RegistryEntry}

def fate (new : String → Option String) (reg : Registry) (e : RegistryEntry) : Option RegistryEntry :=
  match new e.uniqueId with
  | none => some e
  | some uniqueId =>
    match reg.getEntityId ⟨e.entityId.domain,domain,uniqueId⟩ with
    | none => some { e with uniqueId := uniqueId }
    | some _ => none

def settle (new : String → Option String) (reg : Registry) (done : List RegistryEntry) (e : RegistryEntry) :
    Option RegistryEntry :=
  if e ∈ done then fate new reg e else some e

theorem fate_entityId {x : RegistryEntry} (h : fate new reg e = some x) : x.entityId = e.entityId := by
  unfold fate at h
  split at h
  · rw [← Option.some.inj h]
  · split at h
    · rw [← Option.some.inj h]
    · cases h

theorem settle_entityId {x : RegistryEntry} (h : settle new reg done e = some x) : x.entityId = e.entityId := by
  unfold settle at h
  split at h
  · exact fate_entityId h
  · rw [← Option.some.inj h]

theorem settle_of_none (h : e ∈ done → new e.uniqueId = none) : settle new reg done e = some e := by
  unfold settle
  split
  · rename_i hmem
    unfold fate
    rw [h hmem]
  · rfl

theorem settle_concat_of_ne {x : RegistryEntry} (h : x ≠ e) :
    settle new reg (done ++ [e]) x = settle new reg done x := by
  simp [settle,h]

theorem settle_concat_self : settle new reg (done ++ [e]) e = fate new reg e := by simp [settle]

theorem settle_cases {x : RegistryEntry} (h : settle new reg done e = some x) : x = e ∨
    ∃ uniqueId, e ∈ done ∧ new e.uniqueId = some uniqueId ∧ x = { e with uniqueId := uniqueId } := by
  unfold settle at h
  split at h
  · rename_i hmem
    unfold fate at h
    split at h
    · exact Or.inl (Option.some.inj h).symm
    · rename_i uniqueId hnew
      split at h
      · exact Or.inr ⟨uniqueId,hmem,hnew,(Option.some.inj h).symm⟩
      · cases h
  · exact Or.inl (Option.some.inj h).symm

theorem not_held_of_free {k : Key} (hfree : reg.getEntityId k = none) {x : RegistryEntry} (hx : x ∈ reg.entries) :
    x.key ≠ k := by
  intro hkey
  rw [Registry.getEntityId_eq_some_iff.mpr ⟨x,hx,hkey,rfl⟩] at hfree
  cases hfree

section Turns
variable (hund : Undisputed (fun e uniqueId => new e.uniqueId = some uniqueId) entryId reg)
  (hdone : ∀ x ∈ done, x ∈ entriesForConfigEntry reg entryId) (he : e ∈ entriesForConfigEntry reg entryId)
  (hr : r.entries = reg.entries.filterMap (settle new reg done))
include hund hdone he

theorem settle_of_holder {y : RegistryEntry} {uniqueId : String} (huid : new e.uniqueId = some uniqueId)
    (hkey : y.key = ⟨e.entityId.domain,domain,uniqueId⟩) : settle new reg done y = some y := by
  obtain ⟨hdomain,_,rfl⟩ := Key.mk.inj hkey
  refine settle_of_none (fun hmem => ?_)
  rw [Option.eq_none_iff_forall_ne_some]
  exact hund.settled e he y (hdone y hmem) hdomain huid

include hr

theorem free_of_turns {uniqueId : String} (hnot : e ∉ done) (huid : new e.uniqueId = some uniqueId)
    (hfree : reg.getEntityId ⟨e.entityId.domain,domain,uniqueId⟩ = none) :
    r.getEntityId ⟨e.entityId.domain,domain,uniqueId⟩ = none := by
  rw [Option.eq_none_iff_forall_ne_some]
  intro id hid
  obtain ⟨y,hy,hkey,_⟩ := Registry.getEntityId_eq_some_iff.mp hid
  rw [hr] at hy
  obtain ⟨z,hz,hzy⟩ := List.mem_filterMap.mp hy
  rcases settle_cases hzy with rfl | ⟨uniqueId',hmem,huid',rfl⟩
  · exact not_held_of_free hfree hz hkey
  · obtain ⟨hdomain,_,rfl⟩ := Key.mk.inj hkey
    obtain ⟨w,hw,hkey'⟩ := hund.unshared e he z (hdone z hmem) (fun h => hnot (h ▸ hmem)) hdomain uniqueId' huid huid'
    exact not_held_of_free hfree hw hkey'

omit hund hdone in
theorem filterMap_turn (hnot : e ∉ done) {f : RegistryEntry → Option RegistryEntry} (hself : f e = fate new reg e)
    (hother : ∀ x, x.entityId ≠ e.entityId → f x = some x) :
    r.entries.filterMap f = reg.entries.filterMap (settle new reg (done ++ [e])) := by
  rw [hr,List.filterMap_filterMap]
  refine List.filterMap_congr (fun x hx => ?_)
  by_cases hxe : x = e
  · rw [hxe,settle_concat_self,settle_of_none (fun hmem => absurd hmem hnot)]
    exact hself
  · rw [settle_concat_of_ne hxe]
    cases hsx : settle new reg done x with
    | none => rfl
    | some z =>
      have hid : z.entityId ≠ e.entityId := by
        rw [settle_entityId hsx]
        exact fun h => hxe (Registry.eq_of_entityId hx (mem_entriesForConfigEntry.mp he).1 h)
      exact hother z hid

theorem settle_turn (hnew : ∀ old uniqueId, new old = some uniqueId → uniqueId ≠ old) (hnot : e ∉ done)
    (hplatform : e.platform = domain) : ∃ t, renameUniqueId new r e = .ok t ∧
      t.entries = reg.entries.filterMap (settle new reg (done ++ [e])) := by
  have hreg : e ∈ reg.entries := (mem_entriesForConfigEntry.mp he).1
  have her : e ∈ r.entries := by
    rw [hr]
    exact List.mem_filterMap.mpr ⟨e,hreg,settle_of_none (fun hmem => absurd hmem hnot)⟩
  cases huid : new e.uniqueId with
  | none =>
    refine ⟨r,by rw [renameUniqueId,huid],?_⟩
    have hturn := filterMap_turn he hr hnot (f := some) (by rw [fate,huid]) (fun _ _ => rfl)
    rwa [List.filterMap_some] at hturn
  | some uniqueId =>
    cases hheld : reg.getEntityId ⟨e.entityId.domain,domain,uniqueId⟩ with
    | some id =>
      -- the holder is there, and it is another entity
      obtain ⟨y,hy,hkey,rfl⟩ := Registry.getEntityId_eq_some_iff.mp hheld
      have hyr : y ∈ r.entries := by
        rw [hr]
        exact List.mem_filterMap.mpr ⟨y,hy,settle_of_holder hund hdone he huid hkey⟩
      have hne : y.entityId ≠ e.entityId := by
        intro hid
        obtain rfl := Registry.eq_of_entityId hy hreg hid
        exact hnew _ _ huid (Key.mk.inj hkey).2.2.symm
      refine ⟨r.removeWhere (fun x => x.entityId = e.entityId),?_,?_⟩
      · simp [renameUniqueId,huid,Registry.getEntityId_eq_some_iff.mpr ⟨y,hyr,hkey,rfl⟩,hne]
      · change r.entries.filter (fun x => !decide (x.entityId = e.entityId)) = _
        rw [← List.filterMap_eq_filter]
        refine filterMap_turn he hr hnot ?_ (fun x hx => ?_)
        · simp [fate,huid,hheld]
        · simp [hx]
    | none =>
      have hfree := free_of_turns hund hdone he hr hnot huid hheld
      obtain ⟨t,ht,hentries⟩ := renameUniqueId_of_free her hplatform huid hfree
      refine ⟨t,ht,?_⟩
      rw [hentries,replaceBy,← List.filterMap_eq_map]
      refine filterMap_turn he hr hnot ?_ (fun x hx => ?_)
      · simp [fate,huid,hheld]
      · simp [hx]

end Turns

theorem settle_nil : reg.entries = reg.entries.filterMap (settle new reg []) := by
  have hnil : settle new reg [] = some := funext (fun x => settle_of_none (fun h => absurd h (by simp)))
  rw [hnil,List.filterMap_some]

/-- The loop in any order: each entity it comes to meets its fate. -/
theorem settle_run (hund : Undisputed (fun e uniqueId => new e.uniqueId = some uniqueId) entryId reg)
    (hnew : ∀ old uniqueId, new old = some uniqueId → uniqueId ≠ old)
    (hplatform : ∀ e ∈ entriesForConfigEntry reg entryId, e.platform = domain) {listed : List RegistryEntry}
    (hn : listed.Nodup) (hlisted : ∀ e ∈ listed, e ∈ entriesForConfigEntry reg entryId) :
    ∃ r, renameUniqueIds new reg listed = .ok r ∧ r.entries = reg.entries.filterMap (settle new reg listed) := by
  induction listed using List.reverseRecOn with
  | nil => exact ⟨reg,rfl,settle_nil⟩
  | append_singleton done e ih =>
    obtain ⟨hdone,_,hnot⟩ := List.nodup_append.mp hn
    obtain ⟨r,hrun,hr⟩ := ih hdone (fun x hx => hlisted x (List.mem_append_left _ hx))
    have he := hlisted e (by simp)
    obtain ⟨t,ht,hentries⟩ := settle_turn hund (fun x hx => hlisted x (List.mem_append_left _ hx)) he hr hnew
      (fun hmem => hnot e hmem e (by simp) rfl) (hplatform e he)
    refine ⟨t,?_,hentries⟩
    rw [renameUniqueIds_append hrun,renameUniqueIds,ht]
    rfl

section Orders
variable (hund : Undisputed (fun e uniqueId => new e.uniqueId = some uniqueId) entryId reg)
  (hnew : ∀ old uniqueId, new old = some uniqueId → uniqueId ≠ old)
  (hplatform : ∀ e ∈ entriesForConfigEntry reg entryId, e.platform = domain)
include hund hnew hplatform

theorem run_perm {listed : List RegistryEntry} (hperm : listed.Perm (entriesForConfigEntry reg entryId)) :
    renameUniqueIds new reg listed = renameUniqueIds new reg (entriesForConfigEntry reg entryId) := by
  have hn : (entriesForConfigEntry reg entryId).Nodup := (nodup_entriesForConfigEntry reg entryId).of_map
  obtain ⟨r,hrun,hr⟩ := settle_run hund hnew hplatform (hperm.nodup_iff.mpr hn) (fun e he => hperm.mem_iff.mp he)
  obtain ⟨t,hrun',ht⟩ := settle_run hund hnew hplatform hn (fun e he => he)
  have hentries : r.entries = t.entries := by
    rw [hr,ht]
    refine List.filterMap_congr (fun x _ => ?_)
    simp only [settle,hperm.mem_iff]
  rw [hrun,hrun',Registry.ext_entries hentries]

theorem holder_run {before after : List RegistryEntry} {uniqueId : String} {holder : EntityId}
    (hperm : (before ++ e :: after).Perm (entriesForConfigEntry reg entryId))
    (hbefore : renameUniqueIds new reg before = .ok r) (huid : new e.uniqueId = some uniqueId)
    (hholder : r.getEntityId ⟨e.entityId.domain,domain,uniqueId⟩ = some holder) :
    (ended (renameUniqueIds new reg (before ++ e :: after))).getEntityId ⟨e.entityId.domain,domain,uniqueId⟩ =
      some holder := by
  have hlisted : ∀ x ∈ before ++ e :: after, x ∈ entriesForConfigEntry reg entryId := fun x hx => hperm.mem_iff.mp hx
  have hn : (before ++ e :: after).Nodup :=
    hperm.nodup_iff.mpr (nodup_entriesForConfigEntry reg entryId).of_map
  obtain ⟨hnbefore,_,hapart⟩ := List.nodup_append.mp hn
  have hdone : ∀ x ∈ before, x ∈ entriesForConfigEntry reg entryId := fun x hx => hlisted x (by simp [hx])
  have he := hlisted e (by simp)
  obtain ⟨r',hrun,hr⟩ := settle_run hund hnew hplatform hnbefore hdone
  obtain rfl : r = r' := Except.ok.inj (hbefore.symm.trans hrun)
  obtain ⟨t,hrun',ht⟩ := settle_run hund hnew hplatform hn hlisted
  cases hheld : reg.getEntityId ⟨e.entityId.domain,domain,uniqueId⟩ with
  | none =>
    rw [free_of_turns hund hdone he hr (fun hmem => hapart e hmem e (by simp) rfl) huid hheld] at hholder
    cases hholder
  | some id =>
    -- the holder of the start holds it at the turn and at the end
    obtain ⟨w,hw,hkey,_⟩ := Registry.getEntityId_eq_some_iff.mp hheld
    have hwr : w ∈ r.entries := by
      rw [hr]
      exact List.mem_filterMap.mpr ⟨w,hw,settle_of_holder hund hdone he huid hkey⟩
    have hwt : w ∈ t.entries := by
      rw [ht]
      exact List.mem_filterMap.mpr ⟨w,hw,settle_of_holder hund hlisted he huid hkey⟩
    rw [Registry.getEntityId_eq_some_iff.mpr ⟨w,hwr,hkey,rfl⟩] at hholder
    rw [hrun']
    exact (Registry.getEntityId_eq_some_iff.mpr ⟨w,hwt,hkey,rfl⟩).trans hholder

end Orders

theorem exists_renameUniqueId (hnew : ∀ old uniqueId, new old = some uniqueId → uniqueId ≠ old)
    (he : e ∈ reg.entries) (hplatform : e.platform = domain) : ∃ r, renameUniqueId new reg e = .ok r := by
  cases huid : new e.uniqueId with
  | none => exact ⟨reg,by rw [renameUniqueId,huid]⟩
  | some uniqueId =>
    cases hheld : reg.getEntityId ⟨e.entityId.domain,domain,uniqueId⟩ with
    | none =>
      obtain ⟨r,hr,_⟩ := renameUniqueId_of_free he hplatform huid hheld
      exact ⟨r,hr⟩
    | some id =>
      have hne : id ≠ e.entityId := by
        rintro rfl
        obtain ⟨y,hy,hkey,hid⟩ := Registry.getEntityId_eq_some_iff.mp hheld
        obtain rfl := Registry.eq_of_entityId hy he hid
        exact hnew _ _ huid (Key.mk.inj hkey).2.2.symm
      exact ⟨reg.removeWhere (fun x => x.entityId = e.entityId),by simp only [renameUniqueId,huid,hheld,if_neg hne]⟩

theorem exists_renameUniqueIds (hnew : ∀ old uniqueId, new old = some uniqueId → uniqueId ≠ old)
    {listed : List RegistryEntry} (hn : (listed.map RegistryEntry.entityId).Nodup)
    (hsub : ∀ x ∈ listed, x ∈ reg.entries) (hplatform : ∀ x ∈ listed, x.platform = domain) :
    ∃ r, renameUniqueIds new reg listed = .ok r := by
  induction listed generalizing reg with
  | nil => exact ⟨reg,rfl⟩
  | cons e rest ih =>
    obtain ⟨r,hr⟩ := exists_renameUniqueId hnew (hsub e (by simp)) (hplatform e (by simp))
    rw [renameUniqueIds,hr]
    exact ih (List.nodup_cons.mp hn).2 (later_of_turn hn hsub hr) (fun x hx => hplatform x (by simp [hx]))

theorem not_kept_id {listed : List RegistryEntry} {x : RegistryEntry} {uniqueId : String}
    (hn : (listed.map RegistryEntry.entityId).Nodup) (hsub : ∀ y ∈ listed, y ∈ reg.entries)
    (h : renameUniqueIds new reg listed = .ok r) (hx : x ∈ listed)
    (hnew : new x.uniqueId = some uniqueId) (hne : uniqueId ≠ x.uniqueId) :
    r.getEntityId x.key ≠ some x.entityId := by
  intro hget
  obtain ⟨z,hz,hkey,hid⟩ := Registry.getEntityId_eq_some_iff.mp hget
  rcases mem_of_ok h hn hsub hz with ⟨y,hy,rfl⟩ | ⟨_,hnot⟩
  · rw [renamed_entityId] at hid
    obtain rfl := Registry.eq_of_entityId (hsub y hy) (hsub x hx) hid
    rw [renamed_of_some hnew] at hkey
    exact hne (Key.mk.inj hkey).2.2
  · exact hnot (List.mem_map.mpr ⟨x,hx,hid.symm⟩)

end Loop

section Migration
variable (T : Text) (identity entryId : String) (s : Snapshot) (reg : Registry)

/-- The entity has the id of a reference that only objects of one other reference had, and the other
reference makes the new id. -/
def Outdated (e : RegistryEntry) (new : String) : Prop :=
  ∃ d ∈ allDescriptions, d.dataReference.isSome = true ∧ ∃ reference c,
    e.uniqueId = T.prefixOf identity ++ d.id reference ∧ Superseded T s d reference c ∧
      new = T.prefixOf identity ++ d.id c

/-- The registry that the migration leaves is the same in every order, and who makes an entity a
duplicate still does so at the end. -/
structure OrderFree : Prop where
  same : ∀ listed, listed.Perm (entriesForConfigEntry reg entryId) →
    renameUniqueIds (uniqueIdRenames T identity s) reg listed = migrateLegacyUniqueIds T identity entryId s reg
  justified : ∀ before e after, (before ++ e :: after).Perm (entriesForConfigEntry reg entryId) →
    ∀ r, renameUniqueIds (uniqueIdRenames T identity s) reg before = .ok r →
    ∀ new, uniqueIdRenames T identity s e.uniqueId = some new →
    ∀ holder, r.getEntityId ⟨e.entityId.domain,domain,new⟩ = some holder → holder ≠ e.entityId →
      (ended (renameUniqueIds (uniqueIdRenames T identity s) reg (before ++ e :: after))).getEntityId
        ⟨e.entityId.domain,domain,new⟩ = some holder

variable {T identity entryId s reg}

theorem outdated_iff {e : RegistryEntry} {new : String} :
    Outdated T identity s e new ↔ uniqueIdRenames T identity s e.uniqueId = some new := by
  constructor
  · rintro ⟨d,hd,href,reference,c,huid,hsup,rfl⟩
    rw [huid]
    exact (uniqueIdRenames_eq_some_iff (List.mem_append_left _ hd) href).mpr ⟨hd,c,hsup,rfl⟩
  · intro h
    obtain ⟨d,hd,o,ho,hold,_⟩ := mem_renamePairs.mp (resolveRenames_mem h).1
    obtain ⟨reference,huid⟩ : ∃ reference, e.uniqueId = T.prefixOf identity ++ d.id reference := by
      rcases hold with hold | hold | ⟨_,_,hold⟩
      · exact ⟨_,hold⟩
      · exact ⟨_,hold⟩
      · exact ⟨_,hold⟩
    have href := reference_of_sources hd ho
    rw [huid,uniqueIdRenames_eq_some_iff (List.mem_append_left _ hd) href] at h
    obtain ⟨_,c,hsup,hnew⟩ := h
    exact ⟨d,hd,href,reference,c,huid,hsup,hnew⟩

theorem undisputed_of_orderFree (hplatform : ∀ e ∈ entriesForConfigEntry reg entryId, e.platform = domain)
    (h : OrderFree T identity entryId s reg) : Undisputed (Outdated T identity s) entryId reg := by
  have hnew : ∀ old new, uniqueIdRenames T identity s old = some new → new ≠ old :=
    fun _ _ h => (resolveRenames_mem h).2
  have hkey : ∀ x ∈ entriesForConfigEntry reg entryId, x.key = ⟨x.entityId.domain,domain,x.uniqueId⟩ := fun x hx => by
    rw [RegistryEntry.key,hplatform x hx]
  have hids := nodup_entriesForConfigEntry reg entryId
  have hnodup : ∀ listed : List RegistryEntry, listed.Perm (entriesForConfigEntry reg entryId) →
      (listed.map RegistryEntry.entityId).Nodup := fun listed hperm => (hperm.map _).nodup_iff.mpr hids
  have hreg : ∀ listed : List RegistryEntry, listed.Perm (entriesForConfigEntry reg entryId) →
      ∀ x ∈ listed, x ∈ reg.entries :=
    fun listed hperm x hx => (mem_entriesForConfigEntry.mp (hperm.mem_iff.mp hx)).1
  have hfirst : ∀ e ∈ entriesForConfigEntry reg entryId,
      (e :: (entriesForConfigEntry reg entryId).erase e).Perm (entriesForConfigEntry reg entryId) :=
    fun e he => (List.perm_cons_erase he).symm
  constructor
  · -- with this entity first it is removed for one that gives the id up
    intro e he x hx hdomain hmove new hmove'
    have huid := outdated_iff.mp hmove
    have hperm := hfirst e he
    have hholder : reg.getEntityId ⟨e.entityId.domain,domain,x.uniqueId⟩ = some x.entityId :=
      Registry.getEntityId_eq_some_iff.mpr ⟨x,(mem_entriesForConfigEntry.mp hx).1,by rw [hkey x hx,hdomain],rfl⟩
    have hne : x.entityId ≠ e.entityId := by
      intro hid
      obtain rfl := List.inj_on_of_nodup_map hids hx he hid
      exact hnew _ _ huid rfl
    obtain ⟨r,hr⟩ := exists_renameUniqueIds hnew (hnodup _ hperm) (hreg _ hperm)
      (fun y hy => hplatform y (hperm.mem_iff.mp hy))
    have hend := h.justified [] e _ hperm reg rfl _ huid _ hholder hne
    rw [List.nil_append,hr,← hdomain,← hkey x hx] at hend
    have huid' := outdated_iff.mp hmove'
    exact not_kept_id (hnodup _ hperm) (hreg _ hperm) hr (hperm.mem_iff.mpr hx) huid' (hnew _ _ huid') hend
  · -- whichever is first of the two gets the id, so in one registry both have it
    intro e he x hx hne hdomain new hmove hmove'
    by_contra hnone
    have hfree : reg.getEntityId ⟨e.entityId.domain,domain,new⟩ = none := by
      rw [Option.eq_none_iff_forall_ne_some]
      intro id hid
      obtain ⟨y,hy,hkey,_⟩ := Registry.getEntityId_eq_some_iff.mp hid
      exact hnone ⟨y,hy,hkey⟩
    have hgets : ∀ y ∈ entriesForConfigEntry reg entryId, y.entityId.domain = e.entityId.domain →
        Outdated T identity s y new →
        { y with uniqueId := new } ∈ (ended (migrateLegacyUniqueIds T identity entryId s reg)).entries := by
      intro y hy hdomain hmove
      have hperm := hfirst y hy
      have hturn : renameUniqueIds (uniqueIdRenames T identity s) reg [] = .ok reg := rfl
      rw [← h.same _ hperm]
      exact renamed_of_turn (hnodup _ hperm) (hreg _ hperm) hturn (hplatform y hy)
        (outdated_iff.mp hmove) (hdomain ▸ hfree)
    have heq := List.inj_on_of_nodup_map (Registry.keys _) (hgets e he rfl hmove) (hgets x hx hdomain hmove') (by
      simp only [RegistryEntry.key,hdomain,hplatform e he,hplatform x hx])
    exact hne (List.inj_on_of_nodup_map hids hx he (congrArg RegistryEntry.entityId heq).symm)

/-- The migration of the formats does not depend on the order of the registry exactly if no outdated
entity is to get the id of another outdated one, and two are to get one id only if it is taken. -/
theorem orderFree_iff (T : Text) (identity entryId : String) (s : Snapshot) (reg : Registry)
    (hplatform : ∀ e ∈ reg.entries, e.OfEntry entryId = true → e.platform = domain) :
    OrderFree T identity entryId s reg ↔ Undisputed (Outdated T identity s) entryId reg := by
  have hplatform' : ∀ e ∈ entriesForConfigEntry reg entryId, e.platform = domain := fun e he =>
    hplatform e (mem_entriesForConfigEntry.mp he).1 (mem_entriesForConfigEntry.mp he).2
  refine ⟨undisputed_of_orderFree hplatform',fun hund => ?_⟩
  have hmoves : Outdated T identity s = fun e new => uniqueIdRenames T identity s e.uniqueId = some new :=
    funext (fun e => funext (fun new => propext outdated_iff))
  have hnew : ∀ old new, uniqueIdRenames T identity s old = some new → new ≠ old :=
    fun _ _ h => (resolveRenames_mem h).2
  rw [hmoves] at hund
  exact ⟨fun listed hperm => run_perm hund hnew hplatform' hperm,
    fun before e after hperm r hbefore new huid holder hholder _ =>
      holder_run hund hnew hplatform' hperm hbefore huid hholder⟩

end Migration

/-- The entities of `crossed` under the names. -/
def crossedEntries : Registry where
  entries := [certificateEntry "lab" "lab",certificateEntry "nas" "NAS"]
  ids := by decide
  keys := by decide

theorem orderFree_iff_crossed : OrderFree ascii "guid" "e1" crossed crossedEntries ↔
    Undisputed (Outdated ascii "guid" crossed) "e1" crossedEntries :=
  orderFree_iff ascii "guid" "e1" crossed crossedEntries (by decide)

/-- One certificate's entity is removed for the one that the other's is about to leave. -/
theorem not_orderFree_of_crossed : ¬ ∀ (T : Text) (identity entryId : String) (s : Snapshot) (reg : Registry),
    (∀ e ∈ reg.entries, e.OfEntry entryId = true → e.platform = domain) → OrderFree T identity entryId s reg := by
  intro hall
  have horder := congrArg (fun r => (ended r).entries) ((hall ascii "guid" "e1" crossed crossedEntries (by decide)).same
    [certificateEntry "nas" "NAS",certificateEntry "lab" "lab"] (by decide))
  revert horder
  decide +kernel

end TruenasCE.Identity
