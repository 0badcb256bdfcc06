import TruenasCE.Identity.Renames

/-! # Which entities the migration of the formats renames -/
namespace TruenasCE.Identity
open Library Migration Cleanup

section Loop
variable {new : String → Option String} {reg r : Registry} {e : RegistryEntry} {before rest : List RegistryEntry}

theorem renameUniqueIds_append (h : renameUniqueIds new reg before = .ok r) (rest : List RegistryEntry) :
    renameUniqueIds new reg (before ++ rest) = renameUniqueIds new r rest := by
  induction before generalizing reg with
  | nil =>
    obtain rfl : reg = r := Except.ok.inj h
    rfl
  | cons e earlier ih =>
    rw [renameUniqueIds] at h
    rw [List.cons_append,renameUniqueIds]
    split at h
    · cases h
    · exact ih h

theorem kept_of_later (hn : ((before ++ rest).map RegistryEntry.entityId).Nodup) (hsub : ∀ x ∈ before, x ∈ reg.entries)
    (h : renameUniqueIds new reg before = .ok r) {x : RegistryEntry} (hx : x ∈ reg.entries)
    (hrest : x ∈ rest) : x ∈ r.entries := by
  rw [List.map_append] at hn
  have hnot : x ∉ before := fun hmem =>
    (List.nodup_append.mp hn).2.2 _ (List.mem_map_of_mem hmem) _ (List.mem_map_of_mem hrest) rfl
  exact kept_of_ok h (List.nodup_append.mp hn).1 hsub hx (fun hmem => absurd hmem hnot)

theorem nodup_entriesForConfigEntry (reg : Registry) (entryId : String) :
    ((entriesForConfigEntry reg entryId).map RegistryEntry.entityId).Nodup := (List.filter_sublist.map _).nodup reg.ids

theorem not_kept_entry {entryId uniqueId : String}
    (h : renameUniqueIds new reg (entriesForConfigEntry reg entryId) = .ok r)
    (he : e ∈ reg.entries) (hof : e.OfEntry entryId = true) (hnew : new e.uniqueId = some uniqueId)
    (hne : uniqueId ≠ e.uniqueId) :
    e ∉ r.entries := by
  intro hmem
  have hpost := renameUniqueIds_entry new reg entryId
  rw [h] at hpost
  rcases hpost e hmem with ⟨_,hnot⟩ | ⟨x,hx,_,hex⟩
  · rw [hof] at hnot
    cases hnot
  · have hid : e.entityId = x.entityId := (congrArg RegistryEntry.entityId hex).trans renamed_entityId
    obtain rfl := Registry.eq_of_entityId he hx hid
    rw [renamed_of_some hnew] at hex
    exact hne (congrArg RegistryEntry.uniqueId hex).symm

theorem renameUniqueId_of_free {uniqueId : String} (he : e ∈ r.entries) (hplatform : e.platform = domain)
    (hnew : new e.uniqueId = some uniqueId)
    (hfree : r.getEntityId ⟨e.entityId.domain,domain,uniqueId⟩ = none) :
    ∃ t, renameUniqueId new r e = .ok t ∧
      t.entries = replaceBy RegistryEntry.entityId r.entries { e with uniqueId := uniqueId } := by
  have hget : r.get e.entityId = some e := Registry.get_eq_some_iff.mpr ⟨he,rfl⟩
  have hkeys : ∀ x ∈ r.entries, x.key ≠ ({ e with uniqueId := uniqueId } : RegistryEntry).key := by
    intro x hx hk
    have hkey : x.key = ⟨e.entityId.domain,domain,uniqueId⟩ := by rw [hk,RegistryEntry.key,hplatform]
    rw [Registry.getEntityId_eq_some_iff.mpr ⟨x,hx,hkey,rfl⟩] at hfree
    cases hfree
  refine ⟨r.replaceAt { e with uniqueId := uniqueId } (fun x hx hk => absurd hk (hkeys x hx)),?_,rfl⟩
  unfold renameUniqueId
  simp only [hnew,hfree]
  unfold Registry.setUniqueId
  simp only [hget]
  rw [dif_pos hkeys]
  rfl

theorem renameUniqueId_free {uniqueId : String} (he : e ∈ r.entries) (hplatform : e.platform = domain)
    (hnew : new e.uniqueId = some uniqueId)
    (hfree : r.getEntityId ⟨e.entityId.domain,domain,uniqueId⟩ = none) :
    ∃ t, renameUniqueId new r e = .ok t ∧ { e with uniqueId := uniqueId } ∈ t.entries := by
  obtain ⟨t,ht,hentries⟩ := renameUniqueId_of_free he hplatform hnew hfree
  refine ⟨t,ht,?_⟩
  rw [hentries]
  exact List.mem_map.mpr ⟨e,he,if_pos rfl⟩

/-- An entity whose new id is free at its turn has it at the end, whether or not the loop raises later. -/
theorem renamed_of_turn {uniqueId : String} (hn : ((before ++ e :: rest).map RegistryEntry.entityId).Nodup)
    (hsub : ∀ x ∈ before ++ e :: rest, x ∈ reg.entries) (hbefore : renameUniqueIds new reg before = .ok r)
    (hplatform : e.platform = domain)
    (hnew : new e.uniqueId = some uniqueId) (hfree : r.getEntityId ⟨e.entityId.domain,domain,uniqueId⟩ = none) :
    { e with uniqueId := uniqueId } ∈ (ended (renameUniqueIds new reg (before ++ e :: rest))).entries := by
  have hlater : ∀ x ∈ e :: rest, x ∈ r.entries := fun x hx =>
    kept_of_later hn (fun y hy => hsub y (by simp [hy])) hbefore (hsub x (List.mem_append_right _ hx)) hx
  obtain ⟨t,ht,hmem⟩ := renameUniqueId_free (hlater e (by simp)) hplatform hnew hfree
  have hrest : ((e :: rest).map RegistryEntry.entityId).Nodup := by
    rw [List.map_append] at hn
    exact (List.nodup_append.mp hn).2.1
  obtain ⟨hfirst,hnodup⟩ := List.nodup_cons.mp hrest
  rw [renameUniqueIds_append hbefore,renameUniqueIds,ht]
  refine Post.ended (kept_renameUniqueIds hnodup (later_of_turn hrest hlater ht) hmem (fun hx => ?_))
  exact absurd (List.mem_map.mpr ⟨_,hx,rfl⟩) hfirst

theorem new_of_renamed {entryId uniqueId : String} (he : e ∈ reg.entries) (hne : uniqueId ≠ e.uniqueId)
    (hmem : { e with uniqueId := uniqueId } ∈
      (ended (renameUniqueIds new reg (entriesForConfigEntry reg entryId))).entries) :
    new e.uniqueId = some uniqueId := by
  have hid : ∀ x ∈ reg.entries, x.entityId = e.entityId → x = e := fun x hx h => Registry.eq_of_entityId hx he h
  rcases mem_entry hmem with hold | ⟨x,hx,_,heq⟩
  · exact absurd (congrArg RegistryEntry.uniqueId (hid _ hold rfl)) hne
  · obtain rfl := hid x hx (((congrArg RegistryEntry.entityId heq).trans renamed_entityId).symm)
    cases hnew : new x.uniqueId with
    | none =>
      rw [renamed_of_none hnew] at heq
      exact absurd (congrArg RegistryEntry.uniqueId heq) hne
    | some uniqueId =>
      rw [renamed_of_some hnew] at heq
      exact congrArg some (congrArg RegistryEntry.uniqueId heq).symm

end Loop

section Live
variable (T : Text) (identity entryId : String) (s : Snapshot) (reg : Registry)

/-- `migrate_legacy_unique_ids` for `_ALL_DESCRIPTIONS` -/
def migrateLegacyUniqueIds : Except Registry Registry :=
  T.migrateLegacyUniqueIds entryId identity (allDescriptions.map EntityDescription.toDescription) s.listing.data reg

def LiveEntity (e : RegistryEntry) (d : EntityDescription) (reference : String) : Prop :=
  d ∈ platformDescriptions ∧ d.dataReference.isSome = true ∧ reference ∈ s.references d ∧
    e.uniqueId = T.prefixOf identity ++ d.id reference

def Untouched (after : Registry) : Prop :=
  ∀ e ∈ reg.entries, ∀ d reference, LiveEntity T identity s e d reference → e ∈ after.entries

/-- No entity of an object has its id for a reference that only objects of one other reference had. -/
def NoneSuperseded : Prop := ∀ e ∈ reg.entries, e.OfEntry entryId = true → ∀ d ∈ allDescriptions, ∀ reference,
  LiveEntity T identity s e d reference → ∀ c, ¬ Superseded T s d reference c

variable {T identity entryId s reg}

theorem untouched_of_noneSuperseded (h : NoneSuperseded T identity entryId s reg) :
    Untouched T identity s reg (ended (migrateLegacyUniqueIds T identity entryId s reg)) := by
  intro e he d reference hlive
  have hof : e.OfEntry entryId = true → uniqueIdRenames T identity s e.uniqueId = none := by
    intro hof
    rw [Option.eq_none_iff_forall_ne_some]
    intro new hnew
    rw [hlive.2.2.2,uniqueIdRenames_eq_some_iff hlive.1 hlive.2.1] at hnew
    obtain ⟨hd,c,hc,_⟩ := hnew
    exact h e he hof d hd reference hlive c hc
  exact kept_entry he hof

/-- The migration of the formats leaves the entities of present objects alone exactly if none of them
has the id of a reference that other objects had. -/
theorem untouched_iff (T : Text) (identity entryId : String) (s : Snapshot) (reg : Registry) :
    (NoneSuperseded T identity entryId s reg →
      Untouched T identity s reg (ended (migrateLegacyUniqueIds T identity entryId s reg))) ∧
    ∀ r, migrateLegacyUniqueIds T identity entryId s reg = .ok r →
      (Untouched T identity s reg r ↔ NoneSuperseded T identity entryId s reg) := by
  refine ⟨untouched_of_noneSuperseded,fun r hr => ⟨fun h e he hof d hd reference hlive c hc => ?_,fun h => ?_⟩⟩
  · have hnew : uniqueIdRenames T identity s e.uniqueId = some (T.prefixOf identity ++ d.id c) := by
      rw [hlive.2.2.2]
      exact (uniqueIdRenames_eq_some_iff hlive.1 hlive.2.1).mpr ⟨hd,c,hc,rfl⟩
    exact not_kept_entry hr he hof hnew (resolveRenames_mem hnew).2 (h e he d reference hlive)
  · have hkept := untouched_of_noneSuperseded h
    rwa [hr] at hkept

end Live

/-- The references that earlier releases put into the unique id of the object. -/
def earlierReferences (T : Text) (o : Source) : List String :=
  (o.1 :: o.2.toList).flatMap (fun r => [T.slugify (T.lower r),T.lower r,r])

theorem mem_earlierReferences_of_former {T : Text} {reference : String} {o : Source} (h : Former T reference o) :
    reference ∈ earlierReferences T o := by
  rcases h with h | h | h
  · simp [earlierReferences,h]
  · simp [earlierReferences,h]
  · simp [earlierReferences,h]

/-- The entity has an earlier id of the object, and of no object with another reference. -/
structure EarlierEntity (T : Text) (identity : String) (s : Snapshot) (d : EntityDescription) (o : Source)
  (e : RegistryEntry) where
  source : o ∈ sources s d
  reference : String
  earlier : reference ∈ earlierReferences T o
  unambiguous : ∀ o' ∈ sources s d, reference ∈ earlierReferences T o' → o'.1 = o.1
  platform : e.platform = domain
  uniqueId : e.uniqueId = T.prefixOf identity ++ d.id reference

theorem EarlierEntity.rename_iff {T : Text} {identity : String} {s : Snapshot} {d : EntityDescription}
    {o : Source} {e : RegistryEntry}
    (he : EarlierEntity T identity s d o e) (hd : d ∈ platformDescriptions) (href : d.dataReference.isSome = true)
    (hne : T.prefixOf identity ++ d.id o.1 ≠ e.uniqueId) :
    uniqueIdRenames T identity s e.uniqueId = some (T.prefixOf identity ++ d.id o.1) ↔
      d ∈ allDescriptions ∧ Formerly T s d he.reference o.1 := by
  rw [he.uniqueId,uniqueIdRenames_eq_some_iff hd href]
  refine and_congr_right (fun _ =>
    ⟨?_,fun hformerly => ⟨o.1,⟨fun h => hne (by rw [he.uniqueId,h]),fun c => ⟨?_,?_⟩⟩,rfl⟩⟩)
  · rintro ⟨c,⟨_,hall⟩,heq⟩
    have hdash := dash_notMem_key d hd (Or.inl href)
    obtain ⟨_,rfl⟩ := id_inj hdash hdash ((String.append_right_inj _).mp heq)
    exact (hall _).mpr rfl
  · rintro ⟨o',ho',rfl,hformer⟩
    exact he.unambiguous o' ho' (mem_earlierReferences_of_former hformer)
  · rintro rfl
    exact hformerly

/-- An entity under an earlier id of one object gets the current id, if that is free at its turn, exactly
if the migration has a description of it with the id as the slug or the lower case of the reference,
or as the earlier reference itself. -/
theorem renamed_iff (T : Text) (identity entryId : String) (s : Snapshot) (reg r : Registry) (d : EntityDescription)
    (hd : d ∈ platformDescriptions) (href : d.dataReference.isSome = true) (o : Source) (e : RegistryEntry)
    (he : EarlierEntity T identity s d o e)
    (before after : List RegistryEntry) (hlist : entriesForConfigEntry reg entryId = before ++ e :: after)
    (hturn : renameUniqueIds (uniqueIdRenames T identity s) reg before = .ok r)
    (hfree : r.getEntityId ⟨e.entityId.domain,domain,T.prefixOf identity ++ d.id o.1⟩ = none) :
    { e with uniqueId := T.prefixOf identity ++ d.id o.1 } ∈
        (ended (migrateLegacyUniqueIds T identity entryId s reg)).entries ↔
      d ∈ allDescriptions ∧ Formerly T s d he.reference o.1 := by
  have hn := nodup_entriesForConfigEntry reg entryId
  have hsub : ∀ x ∈ before ++ e :: after, x ∈ reg.entries := fun x hx => (mem_entriesForConfigEntry.mp (hlist ▸ hx)).1
  rw [hlist] at hn
  have her : e ∈ r.entries := kept_of_later hn (fun x hx => hsub x (by simp [hx])) hturn (hsub e (by simp)) (by simp)
  -- otherwise the entity itself would hold the current id
  have hne : T.prefixOf identity ++ d.id o.1 ≠ e.uniqueId := by
    intro heq
    rw [Registry.getEntityId_eq_some_iff.mpr ⟨e,her,by rw [RegistryEntry.key,he.platform,heq],rfl⟩] at hfree
    cases hfree
  rw [← he.rename_iff hd href hne]
  constructor
  · exact new_of_renamed (hsub e (by simp)) hne
  · intro hnew
    have hmem := renamed_of_turn hn hsub hturn he.platform hnew hfree
    rwa [← hlist] at hmem

/-- `str.lower`, and `slugify` of lower-case letters and digits. -/
def ascii : Text := ⟨fun r => String.ofList (r.toList.map Char.toLower),fun r => r⟩

def certificate : EntityDescription :=
  { key := "certificate_expiry", dataPath := "certificate", dataReference := some "identity",
    dataLegacyReference := some "name" }

def certificates (rows : List (String × String)) : Snapshot where
  monitored := []
  objects := [("certificate",rows.map (fun c => (c.1,⟨[("name",c.1),("identity",c.2)],[]⟩)))]

def certificateEntry (object reference : String) : RegistryEntry :=
  ⟨⟨"sensor",object⟩,domain,"guid-certificate_expiry-" ++ reference,some "e1",none,none,none,none⟩

def oneEntry (e : RegistryEntry) : Registry := ⟨[e],by simp,by simp⟩

/-- The common name of one certificate is the name of another. -/
def crossed : Snapshot := certificates [("lab","NAS"),("NAS","nas2")]

/-- The entity of one certificate gets the id of the other. -/
theorem not_untouched_of_crossed : ¬ ∀ (T : Text) (identity entryId : String) (s : Snapshot) (reg : Registry),
    Untouched T identity s reg (ended (migrateLegacyUniqueIds T identity entryId s reg)) := by
  intro hall
  have hkept := hall ascii "guid" "e1" crossed (oneEntry (certificateEntry "lab" "NAS")) _
    (List.mem_singleton_self _) certificate "NAS"
    ⟨by decide +kernel,rfl,by decide,by decide +kernel⟩
  revert hkept
  decide +kernel

/-- A certificate with capitals in its name and its common name. -/
def capitals : Snapshot := certificates [("Web","Nas")]

theorem renamed_iff_lowercased :
    ({ certificateEntry "web" "nas" with uniqueId := "guid-" ++ certificate.id "Nas" } : RegistryEntry) ∈
      (ended (migrateLegacyUniqueIds ascii "guid" "e1" capitals (oneEntry (certificateEntry "web" "nas")))).entries ↔
      certificate ∈ allDescriptions ∧ Formerly ascii capitals certificate "nas" "Nas" :=
  renamed_iff ascii "guid" "e1" capitals (oneEntry (certificateEntry "web" "nas"))
    (oneEntry (certificateEntry "web" "nas")) certificate
    (by decide +kernel) rfl ("Nas",some "Web") (certificateEntry "web" "nas")
    ⟨by decide +kernel,"nas",by decide +kernel,by decide +kernel,rfl,by decide +kernel⟩ [] []
      (by decide +kernel) rfl (by decide +kernel)

/-- An entity under the name in lower case is left behind. -/
theorem not_renamed_of_name : ¬ ∀ (T : Text) (identity entryId : String) (s : Snapshot)
    (reg r : Registry), ∀ d ∈ platformDescriptions,
    d.dataReference.isSome = true → ∀ (o : Source) (e : RegistryEntry), EarlierEntity T identity s d o e →
      ∀ before after, entriesForConfigEntry reg entryId = before ++ e :: after →
      renameUniqueIds (uniqueIdRenames T identity s) reg before = .ok r →
      r.getEntityId ⟨e.entityId.domain,domain,T.prefixOf identity ++ d.id o.1⟩ = none →
      { e with uniqueId := T.prefixOf identity ++ d.id o.1 } ∈
        (ended (migrateLegacyUniqueIds T identity entryId s reg)).entries := by
  intro hall
  have hmem := hall ascii "guid" "e1" capitals (oneEntry (certificateEntry "web" "web"))
    (oneEntry (certificateEntry "web" "web")) certificate
    (by decide +kernel) rfl ("Nas",some "Web") (certificateEntry "web" "web")
    ⟨by decide +kernel,"web",by decide +kernel,by decide +kernel,rfl,by decide +kernel⟩ [] []
      (by decide +kernel) rfl (by decide +kernel)
  revert hmem
  decide +kernel

end TruenasCE.Identity
