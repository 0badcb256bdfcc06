import TruenasCE.Identity.Idempotence

/-! # What a quiet second run says

The migrations leave of the entities what is told from the start, so a second run without a change says that each of
these is settled. Of the devices they do too, unless two of them that are both renamed come to one identifier.
-/
namespace TruenasCE.Identity
open Library Migration Cleanup

namespace Setup
variable (c : Setup)

def course (X : Device) : Identifiers := X.identifiers ∪ c.newIdentifiers X.identifiers ∪
  if c.legacyDeviceIdentifier ∈ X.identifiers ∪ c.newIdentifiers X.identifiers then c.systemIdentifiers else ∅

def reach (X : Device) : Identifiers := c.course X ∪ c.newIdentifiers (c.course X)

/-- No two devices that are both renamed come to one identifier. -/
def Unrivalled (st : Registries c.perEntry) : Prop := ∀ X ∈ st.devices.devices, c.Renames X →
  ∀ Y ∈ st.devices.devices, Y.id ≠ X.id → c.inNamespace Y = true → c.Fixed Y ∨ Disjoint (c.reach Y) (c.reach X)

section Entities
variable {new : String → Option String} {reg r : Registry} {e : RegistryEntry}

theorem notMem_turn {uniqueId : String} (he : e ∈ reg.entries) (hnew : new e.uniqueId = some uniqueId)
    (h : renameUniqueId new reg e = .ok r) : e ∉ r.entries := by
  have hset : raising reg (reg.setUniqueId e.entityId uniqueId) = .ok r → e ∉ r.entries := by
    intro h hmem
    cases hr : reg.setUniqueId e.entityId uniqueId with
    | none =>
      rw [hr] at h
      cases h
    | some s =>
      rw [hr] at h
      obtain rfl : s = r := Except.ok.inj h
      rcases Registry.mem_setUniqueId hr hmem with ⟨x,_,hx⟩ | ⟨_,hne⟩
      · have huid : e.uniqueId = uniqueId := congrArg RegistryEntry.uniqueId hx
        rw [← huid,setUniqueId_self he] at hr
        cases hr
      · exact hne rfl
  unfold renameUniqueId at h
  simp only [hnew] at h
  split at h
  · exact hset h
  · split at h
    · exact hset h
    · obtain rfl := Except.ok.inj h
      intro hmem
      simpa using (List.mem_filter.mp hmem).2

theorem exists_turn {listed : List RegistryEntry} (hn : (listed.map RegistryEntry.entityId).Nodup)
    (hsub : ∀ x ∈ listed, x ∈ reg.entries)
    (h : renameUniqueIds new reg listed = .ok r) (he : e ∈ listed) : ∃ before after, e ∈ before.entries ∧
      renameUniqueId new before e = .ok after ∧ (∀ x ∈ before.entries, x ∈ reg.entries ∨
        ∃ y ∈ listed, x = renamed new y) ∧
      ∀ x, x.entityId = e.entityId → (x ∈ r.entries ↔ x ∈ after.entries) := by
  induction listed generalizing reg with
  | nil => cases he
  | cons y rest ih =>
    obtain ⟨hnot,hrest⟩ := List.nodup_cons.mp hn
    have hspec := renameUniqueId_spec new (hsub y (by simp))
    rw [renameUniqueIds] at h
    split at h
    · cases h
    · rename_i s hs
      rw [hs] at hspec
      have hlater := later_of_turn hn hsub hs
      rcases List.mem_cons.mp he with rfl | hmem
      · refine ⟨reg,s,hsub e (by simp),hs,fun x hx => Or.inl hx,fun x hid => ⟨fun hx => ?_,fun hx => ?_⟩⟩
        · rcases mem_of_ok h hrest hlater hx with ⟨z,hz,rfl⟩ | ⟨hold,_⟩
          · rw [renamed_entityId] at hid
            exact absurd (List.mem_map.mpr ⟨z,hz,hid⟩) hnot
          · exact hold
        · exact kept_of_ok h hrest hlater hx (fun hz => absurd (List.mem_map.mpr ⟨x,hz,hid⟩) hnot)
      · obtain ⟨before,after,hbefore,hturn,honly,hafter⟩ := ih hrest hlater h hmem
        refine ⟨before,after,hbefore,hturn,fun x hx => ?_,hafter⟩
        rcases honly x hx with hold | ⟨z,hz,hxz⟩
        · rcases hspec.1 x hold with hxy | ⟨hreg,_⟩
          · exact Or.inr ⟨y,by simp,hxy⟩
          · exact Or.inl hreg
        · exact Or.inr ⟨z,by simp [hz],hxz⟩

theorem none_of_kept {entryId : String} (h : renameUniqueIds new reg (entriesForConfigEntry reg entryId) = .ok r)
    (he : e ∈ reg.entries) (hof : e.OfEntry entryId = true) (hkept : e ∈ r.entries) : new e.uniqueId = none := by
  obtain ⟨before,after,hbefore,hturn,_,hafter⟩ := exists_turn (nodup_entriesForConfigEntry reg entryId)
    (fun x hx => (mem_entriesForConfigEntry.mp hx).1) h (mem_entriesForConfigEntry.mpr ⟨he,hof⟩)
  cases hnew : new e.uniqueId with
  | none => rfl
  | some uniqueId => exact absurd ((hafter e rfl).mp hkept) (notMem_turn hbefore hnew hturn)

end Entities

section Devices
variable {c} {st t u v : Registries c.perEntry} {X Y Z W : Device} {I identifiers : Identifiers}

theorem identifiers_subset_course : X.identifiers ∪ c.newIdentifiers X.identifiers ⊆ c.course X :=
    Finset.subset_union_left

theorem system_subset_course (h : c.legacyDeviceIdentifier ∈ X.identifiers ∪ c.newIdentifiers X.identifiers) :
    c.systemIdentifiers ⊆ c.course X := by
  rw [course,if_pos h]
  exact Finset.subset_union_right

theorem subset_reach {I : Identifiers} (h : I ⊆ c.course X) : I ∪ c.newIdentifiers I ⊆ c.reach X :=
  Finset.union_subset_union h (Finset.image_subset_image h)

theorem course_of_migrate (h : c.migrate st = .ok t) : ∀ Z ∈ t.devices.devices, ∃ X ∈ st.devices.devices,
    Z.id = X.id ∧ Z.entries = X.entries ∧ Z.identifiers ⊆ c.course X := by
  obtain ⟨u,v,hu,hv,ht⟩ := migrate_ok h
  have hp : Progress c st v := (namespace_spec hu).2.1.of_devices (migrate_entities hu hv).2
  have hpast : ∀ Z ∈ v.devices.devices, ∃ X ∈ st.devices.devices, Z.id = X.id ∧ Z.entries = X.entries ∧
      Z.identifiers ⊆ X.identifiers ∪ c.newIdentifiers X.identifiers := by
    intro Z hZ
    obtain ⟨X,hX,rfl | ⟨_,rfl⟩⟩ := hp.origin Z hZ
    · exact ⟨_,hX,rfl,rfl,Finset.subset_union_left⟩
    · exact ⟨X,hX,rfl,rfl,Finset.subset_union_right⟩
  have hkept : ∀ Z ∈ v.devices.devices, ∃ X ∈ st.devices.devices, Z.id = X.id ∧ Z.entries = X.entries ∧
      Z.identifiers ⊆ c.course X := by
    intro Z hZ
    obtain ⟨X,hX,hid,hentries,hsub⟩ := hpast Z hZ
    exact ⟨X,hX,hid,hentries,hsub.trans identifiers_subset_course⟩
  intro Z hZ
  rcases legacyDevice_cases ht with ⟨rfl,_⟩ | ⟨Y,hY,_,hlegacy,hturn,_⟩
  · exact hkept Z hZ
  by_cases hid : Z.id = Y.id
  · rcases hturn.own hY hZ hid with ⟨rfl,_⟩ | ⟨rfl,_⟩
    · exact hkept Z hY
    · obtain ⟨X,hX,hXid,hentries,hsub⟩ := hpast Y hY
      exact ⟨X,hX,hXid,hentries,system_subset_course (hsub hlegacy)⟩
  · exact hkept Z ((hturn.frame.2 Z hid).mp hZ)

theorem follows_of_migrate (h : c.migrate st = .ok t) : Follows c st t := by
  obtain ⟨u,v,hu,hv,ht⟩ := migrate_ok h
  exact legacyDevice_follows ((namespace_spec hu).2.1.of_devices (migrate_entities hu hv).2).toFollows ht

theorem not_contested (hn : c.Unrivalled st) (hX : X ∈ st.devices.devices) (hren : c.Renames X)
    (hI : identifiers ⊆ c.course X) : ¬ c.Contested st X.id identifiers := by
  rintro ⟨Y,hY,hne,hns,hfixed,hmeet⟩
  have hdis := (hn X hX hren Y hY hne hns).resolve_left hfixed
  exact hmeet (hdis.mono (identifiers_subset_course.trans Finset.subset_union_left) (hI.trans Finset.subset_union_left))

theorem rests_of_quiet (hn : c.Unrivalled st) (h : c.migrate st = .ok t) (hq : c.Quiet t) (hX : X ∈ st.devices.devices)
    (hren : c.Renames X) (hI : I ⊆ c.course X) (hmem : { X with identifiers := I } ∈ t.devices.devices)
    (hoccupied : ∀ id, c.entriesForDevice t.entities id ≠ [] → c.Occupied st.entities id) : c.Rests st X.id I := by
  obtain ⟨_,_,hloop⟩ := namespace_spec hq.1
  obtain ⟨r,_,hdev⟩ := hloop hren.1
  have hlisted : { X with identifiers := I } ∈ t.devices.devices.filter c.ofEntry := List.mem_filter.mpr ⟨hmem,hren.2.1⟩
  obtain ⟨s,w,hps,hse,hZs,hturn,hown⟩ := hdev.turns _ hlisted
  have hZw := (hown { X with identifiers := I } rfl).mp hmem
  rcases renameDevice_cases (X := { X with identifiers := I }) hren.1 hren.2.1 hturn with ⟨_,hsame⟩ | ⟨_,hold,hturn⟩
  · exact Or.inl (hsame hren)
  rcases hturn.own hZs hZw rfl with ⟨_,_,hocc,W,hfind,hne⟩ | ⟨hZ,_⟩
  · -- the device found instead comes from one that no migration renames
    obtain ⟨hWs,hWns,hmeet⟩ := mem_of_findEntryDevice hfind
    obtain ⟨Y,hY,hWY⟩ := hps.origin W hWs
    obtain ⟨Y₀,hY₀,hid,hentries,hsub⟩ := course_of_migrate h Y hY
    have hW : W.id = Y.id ∧ W.entries = Y.entries ∧ W.identifiers ⊆ Y.identifiers ∪ c.newIdentifiers Y.identifiers := by
      rcases hWY with rfl | ⟨_,rfl⟩
      · exact ⟨rfl,rfl,Finset.subset_union_left⟩
      · exact ⟨rfl,rfl,Finset.subset_union_right⟩
    have hns₀ : c.inNamespace Y₀ = true := by rwa [inNamespace,ofEntry,hW.2.1,hentries] at hWns
    have hne₀ : Y₀.id ≠ X.id := fun he => hne (hW.1.trans (hid.trans he))
    rcases hn X hX hren Y₀ hY₀ hne₀ hns₀ with hfixed | hdis
    · have hfollows := follows_of_migrate h
      obtain rfl : Y₀ = Y := eq_of_device (hfollows.fixed Y₀ hY₀ hfixed) hY hid.symm
      have hWeq : W = Y₀ := by
        rcases hWY with rfl | ⟨hYr,rfl⟩
        · rfl
        · rw [hfixed.1 hYr]
      subst hWeq
      refine Or.inr ⟨⟨W,hY₀,hne₀,hns₀,hfixed,hmeet,or_iff_not_imp_left.mpr (fun hself => ?_)⟩,hoccupied X.id ?_⟩
      · have hns : c.inNamespace { X with identifiers := I } = true := hren.inNamespace
        have hfirst : Precedes s.devices.devices W { X with identifiers := I } :=
          precedes_of_find hfind hZs (by simp [hns,hself]) (fun he => hne (congrArg Device.id he).symm)
        exact ((hfirst.map Device.id).of_sublist hps.order).of_sublist hfollows.order
      · have hte : s.entities = t.entities := hse.trans (hdev.entities ▸ rfl)
        rwa [hte] at hocc
    · refine absurd (hdis.mono (hW.2.2.trans ?_) ?_) hmeet
      · exact subset_reach hsub
      · exact Finset.subset_union_right.trans (subset_reach hI)
  · exact Or.inl (congrArg Device.identifiers hZ).symm

end Devices

section Runs
variable {c} {st t : Registries c.perEntry}

/-- After a quiet second run the ids of the entities that were left are not renamed again. -/
theorem still_of_quiet (h : c.migrate st = .ok t) (hq : c.Quiet t) : ∀ e ∈ st.entities.entries,
    e.OfEntry c.entryId = true → c.Stays st.entities e → c.Still (c.finalId e.uniqueId) := by
  intro e he hof hstays
  obtain ⟨u,v,hu,hv,ht⟩ := migrate_ok h
  obtain ⟨hfinal,_⟩ := migrate_entities hu hv
  have hlast : renamed c.formatRename (renamed c.namespaceRename e) ∈ t.entities.entries := by
    rw [legacyDevice_entities ht,hfinal]
    exact mem_final.mpr ⟨e,he,hstays,Or.inl ⟨hof,rfl⟩⟩
  have hlastof : (renamed c.formatRename (renamed c.namespaceRename e)).OfEntry c.entryId = true :=
    (renamed_ofEntry.trans renamed_ofEntry).trans hof
  obtain ⟨r,hquiet,hinactive,hactive⟩ := namespace_ok hq.1
  obtain ⟨r',hquiet',ht'⟩ := uniqueIds_ok hq.2.1
  have hentities' : t.entities = r' := congrArg Registries.entities ht'
  have hentities : t.entities = r := by
    by_cases hc : c.Inactive
    · exact congrArg Registries.entities (hinactive hc)
    · exact (deviceLoop hc (nodup_ofEntry t) (Progress.refl t r) listed_ofEntry (hactive hc)).entities
  rw [← finalId_eq]
  refine ⟨none_of_kept hquiet hlast hlastof ?_,none_of_kept hquiet' hlast hlastof ?_⟩
  · rwa [← hentities]
  · rwa [← hentities']

/-- After a quiet second run the registries of the start were settled, if they have no rivals. -/
theorem settled_of_quiet (hn : c.Unrivalled st) (h : c.migrate st = .ok t) (hq : c.Quiet t) : c.Settled st := by
  obtain ⟨u,v,hu,hv,ht⟩ := migrate_ok h
  obtain ⟨_,hprogress,hloop⟩ := namespace_spec hu
  obtain ⟨hfinal,hdevices⟩ := migrate_entities hu hv
  have hpv : Progress c st v := hprogress.of_devices hdevices
  have hoccupied : ∀ id, c.entriesForDevice v.entities id ≠ [] ↔ c.Occupied st.entities id := fun _ => occupied_iff hfinal
  have hend : ∀ X ∈ st.devices.devices, c.Renames X → ∀ I ⊆ c.course X, { X with identifiers := I } ∈ t.devices.devices →
      c.Rests st X.id I := fun X hX hren I hI hmem =>
    rests_of_quiet hn h hq hX hren hI hmem (fun id hocc => (hoccupied id).mp (legacyDevice_entities ht ▸ hocc))
  -- what is left by the migration of the namespace comes to rest
  have hends : ∀ X ∈ st.devices.devices, c.Renames X → ∀ I ⊆ X.identifiers ∪ c.newIdentifiers X.identifiers,
      { X with identifiers := I } ∈ u.devices.devices → c.Ends st X.id I := by
    intro X hX hren I hI hmem
    have hmemv : { X with identifiers := I } ∈ v.devices.devices := hdevices ▸ hmem
    have hcourse : I ⊆ c.course X := hI.trans identifiers_subset_course
    have hns : c.inNamespace { X with identifiers := I } = true := hren.inNamespace
    have hrenI : c.Renames { X with identifiers := I } := hren
    rcases legacyDevice_cases ht with ⟨rfl,hnone⟩ | ⟨X',hX',_,hlegacy',hturn,honly⟩
    · refine ⟨fun _ => hend X hX hren I hcourse hmemv,fun hlegacy => ?_,fun hlegacy => ?_⟩
      · exact absurd hlegacy (hnone _ hmemv hns)
      · exact absurd hlegacy (hnone _ hmemv hns)
    · have hfound : c.legacyDeviceIdentifier ∈ I → X' = { X with identifiers := I } :=
        fun hlegacy => (honly _ hmemv hns hlegacy).symm
      refine ⟨fun hplain => ?_,fun hlegacy hfree => ?_,fun hlegacy htaken hocc => ?_⟩
      · have hne : ({ X with identifiers := I } : Device).id ≠ X'.id := by
          intro hid
          rw [← eq_of_device hmemv hX' hid] at hlegacy'
          exact hplain hlegacy'
        exact hend X hX hren I hcourse ((hturn.frame.2 _ hne).mpr hmemv)
      · obtain rfl := hfound hlegacy
        have hsystem : c.systemIdentifiers ⊆ c.course X := system_subset_course (hI hlegacy)
        refine hend X hX hren _ hsystem (hturn.of_free hX' (fun Y hfind => ?_))
        by_contra hne
        rcases rivals_of_find hpv hX' hns hfind hne with hrival | hcontested
        · exact hfree hrival
        · exact not_contested hn hX hren hsystem hcontested
      · obtain rfl := hfound hlegacy
        have hsystem : c.systemIdentifiers ⊆ c.course X := system_subset_course (hI hlegacy)
        have hrival := htaken.resolve_right (not_contested hn hX hren hsystem)
        obtain ⟨Y,hfind,hne⟩ := Rivalled.find (Z := { X with identifiers := I }) hpv.toFollows hrival hX'
        exact hend X hX hren I hcourse (hturn.of_taken hX' hfind hne ((hoccupied X.id).mpr hocc))
  have hnewcourse : ∀ X : Device, c.newIdentifiers X.identifiers ⊆ c.course X :=
    fun X => Finset.subset_union_right.trans identifiers_subset_course
  refine ⟨still_of_quiet h hq,fun X hX hren hfree => ?_,fun X hX hren hold htaken hocc => ?_⟩
  · obtain ⟨r,_,hdev⟩ := hloop hren.1
    obtain ⟨s,w,hps,_,hXs,hturn,hown⟩ := hdev.turns X (List.mem_filter.mpr ⟨hX,hren.2.1⟩)
    refine hends X hX hren _ Finset.subset_union_right
      ((hown { X with identifiers := c.newIdentifiers X.identifiers } rfl).mpr ?_)
    rcases renameDevice_cases hren.1 hren.2.1 hturn with ⟨rfl,hsame⟩ | ⟨_,hold,hturn⟩
    · rwa [hsame hren]
    · refine hturn.of_free hXs (fun Y hfind => ?_)
      by_contra hne
      rcases rivals_of_find hps hXs hren.inNamespace hfind hne with hrival | hcontested
      · exact hfree.resolve_left hold hrival
      · exact not_contested hn hX hren (hnewcourse X) hcontested
  · obtain ⟨r,hr,hdev⟩ := hloop hren.1
    obtain ⟨s,w,hps,hse,hXs,hturn,hown⟩ := hdev.turns X (List.mem_filter.mpr ⟨hX,hren.2.1⟩)
    refine hends X hX hren _ Finset.subset_union_left ((hown X rfl).mpr ?_)
    have hrival := htaken.resolve_right (not_contested hn hX hren (hnewcourse X))
    obtain ⟨Y,hfind,hne⟩ := hrival.find hps.toFollows hXs
    rcases renameDevice_cases hren.1 hren.2.1 hturn with ⟨_,hsame⟩ | ⟨_,_,hturn⟩
    · exact absurd (hsame hren) hold
    · refine hturn.of_taken hXs hfind hne ?_
      rw [hse]
      exact (occupiedFirst_iff hr).mpr hocc

end Runs
end Setup

/-- A config entry without certificates; its entities are those of the system device. -/
def system (name identity hostname : String) : Setup :=
  ⟨ascii,"e1",name,identity,hostname,true,fun _ => some "d1",certificates []⟩

def uptimeEntry (uniqueId : String) : RegistryEntry :=
  ⟨⟨"sensor","uptime"⟩,domain,uniqueId,some "e1",none,none,none,none⟩

def oneDevice (uniqueId identifier : String) : Registries true :=
  ⟨oneEntry (uptimeEntry uniqueId),⟨[⟨"d1",{(domain,identifier)},["e1"]⟩],by simp,by simp⟩⟩

theorem unrivalled_oneDevice (name identity hostname uniqueId identifier : String) :
    (system name identity hostname).Unrivalled (oneDevice uniqueId identifier) := by
  intro X hX _ Y hY hne
  obtain rfl := List.mem_singleton.mp hX
  obtain rfl := List.mem_singleton.mp hY
  exact absurd rfl hne

theorem settled_truenas : (system "TrueNAS" "guid" "nas").Settled (oneDevice "truenas-uptime" "TrueNAS_nas") := by
  have halone : ∀ X ∈ (oneDevice "truenas-uptime" "TrueNAS_nas").devices.devices, ∀ {P : Device → Prop},
      ¬ ∃ Y ∈ (oneDevice "truenas-uptime" "TrueNAS_nas").devices.devices, Y.id ≠ X.id ∧ P Y := by
    rintro X hX P ⟨Y,hY,hne,_⟩
    obtain rfl := List.mem_singleton.mp hX
    obtain rfl := List.mem_singleton.mp hY
    exact hne rfl
  refine ⟨fun e he _ _ => ?_,fun X hX _ _ => ?_,fun X hX _ _ hrivals _ => ?_⟩
  · obtain rfl := List.mem_singleton.mp he
    exact ⟨by decide +kernel,by decide +kernel⟩
  · obtain rfl := List.mem_singleton.mp hX
    refine ⟨fun hplain => ?_,fun _ _ => Or.inl (by decide +kernel),fun _ hrivals _ => ?_⟩
    · exact absurd (by decide +kernel) hplain
    · exact (hrivals.elim (halone _ hX) (halone _ hX)).elim
  · exact (hrivals.elim (halone X hX) (halone X hX)).elim

end TruenasCE.Identity
