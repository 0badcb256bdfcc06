import Mathlib.Data.List.Dedup
import TruenasCE.Migration.Adoption

/-! # Unique ids and their startup migrations

`format_unique_id` and the two migrations `async_setup_entry` runs over the registry before
the platforms: from the display name to the identity of the entry, and from the earlier
formats of the reference. Both are one loop over the entities of the entry.
-/
namespace TruenasCE.Identity
open Library Migration

/-- `str.lower` and `slugify`. -/
structure Text where
  lower : String → String
  slugify : String → String

def resolveEntryIdentity (systemId : Option String) (entryId : String) : String :=
  match systemId with
  | none => entryId
  | some systemId => if systemId = "" then entryId else systemId

/-- The part of a unique id behind the identity. -/
def suffix (form : String → String) (key : String) : Option String → String
  | none => key
  | some reference => key ++ "-" ++ form reference

/-- The part of a unique id before its suffix. -/
def Text.prefixOf (T : Text) (identity : String) : String := T.lower identity ++ "-"

def Text.formatUniqueId (T : Text) (identity key : String) (reference : Option String) : String :=
  T.prefixOf identity ++ suffix id key reference

def Text.legacyFormatUniqueId (T : Text) (identity key : String) (reference : Option String) : String :=
  T.prefixOf identity ++ suffix (fun r => T.slugify (T.lower r)) key reference

def Text.lowercasedUniqueId (T : Text) (identity key : String) (reference : Option String) : String :=
  T.prefixOf identity ++ suffix T.lower key reference

abbrev Fields := List (String × String)

/-- An object of a data domain: its scalar fields, and its lists of items; an item that is not
a dict is `none`. -/
structure Vals where
  fields : Fields
  containers : List (String × List (Option Fields)) := []
  deriving DecidableEq, Repr

/-- The objects of one data path by uid; one that is not a dict is `none`. -/
abbrev DomainData := List (String × Option Vals)

abbrev Data := List (String × DomainData)

/-- The fields of an entity description the unique ids depend on. -/
structure Description where
  key : String
  dataPath : String
  dataReference : Option String := none
  dataLegacyReference : Option String := none
  dataCompositeReferences : List String := []
  deriving DecidableEq, Repr

def Vals.reference (v : Vals) (field : Option String) (uid : String) : String :=
  (field.bind (fun f => v.fields.lookup f)).getD uid

/-- Pairs of an earlier and the current unique id. -/
abbrev Pairs := List (String × String)

section Pairs
variable (T : Text) (identity : String)

abbrev Formatter := String → String → Option String → String

def referencedIdPairs (legacy : Formatter) (d : Description) (data : DomainData) : Pairs :=
  data.filterMap (fun (uid,vals) => vals.map (fun v =>
    (legacy identity d.key (some (v.reference d.dataReference uid)),
      T.formatUniqueId identity d.key (some (v.reference d.dataReference uid)))))

def legacyReferenceIdPairs (d : Description) (data : DomainData) : Pairs :=
  match d.dataLegacyReference with
  | none => []
  | some field => data.filterMap (fun (uid,vals) => vals.map (fun v =>
      (T.formatUniqueId identity d.key (some (v.reference (some field) uid)),
        T.formatUniqueId identity d.key (some (v.reference d.dataReference uid)))))

/-- The composite references `uid::ref` of a domain. -/
def compositeReferences (d : Description) (data : DomainData) : List String :=
  match d.dataCompositeReferences with
  | [container,leaf] => data.flatMap (fun (uid,vals) =>
    (((vals.bind (fun v => v.containers.lookup container)).getD []).filterMap
      (fun item => (item.bind (fun fields => fields.lookup leaf)).map (fun ref => uid ++ "::" ++ ref))))
  | _ => []

def compositeIdPairs (legacy : Formatter) (d : Description) (data : DomainData) : Pairs :=
  (compositeReferences d data).map (fun composed =>
    (legacy identity d.key (some composed),T.formatUniqueId identity d.key (some composed)))

def legacyUniqueIdFormatters : List Formatter := [T.legacyFormatUniqueId,T.lowercasedUniqueId]

/-- The pairs of `_collect_legacy_formatter_renames`. -/
def legacyFormatterPairs (descriptions : List Description) (data : Data) : Pairs :=
  (legacyUniqueIdFormatters T).flatMap (fun legacy => descriptions.flatMap (fun d =>
    match data.lookup d.dataPath with
    | none => []
    | some domainData =>
      if d.dataCompositeReferences ≠ [] then compositeIdPairs T identity legacy d domainData
      else if d.dataReference.isSome then referencedIdPairs T identity legacy d domainData
      else []))

/-- The pairs of `_collect_legacy_reference_renames`. -/
def legacyReferencePairs (descriptions : List Description) (data : Data) : Pairs :=
  descriptions.flatMap (fun d =>
    match data.lookup d.dataPath with
    | none => []
    | some domainData => legacyReferenceIdPairs T identity d domainData)

/-- `_resolve_renames`: an earlier id with exactly one current id. -/
def resolveRenames (pairs : Pairs) (old : String) : Option String :=
  match ((pairs.filter (fun p => p.1 = old)).map Prod.snd).dedup with
  | [new] => if new = old then none else some new
  | _ => none

def collectUniqueIdRenames (descriptions : List Description) (data : Data) : String → Option String :=
  resolveRenames (legacyFormatterPairs T identity descriptions data ++
    legacyReferencePairs T identity descriptions data)

end Pairs

section Renames
variable {T : Text} {identity : String} {descriptions : List Description} {data : Data} {old new : String}

theorem resolveRenames_mem {pairs : Pairs} (h : resolveRenames pairs old = some new) :
    (old,new) ∈ pairs ∧ new ≠ old := by
  unfold resolveRenames at h
  split at h
  · rename_i new' hd
    split at h
    · cases h
    · rename_i hne
      obtain rfl : new' = new := Option.some.inj h
      have hmem : new' ∈ ((pairs.filter (fun p => p.1 = old)).map Prod.snd).dedup := by simp [hd]
      obtain ⟨q,hq,rfl⟩ := List.mem_map.mp (List.mem_dedup.mp hmem)
      obtain ⟨hqp,hold⟩ := List.mem_filter.mp hq
      obtain rfl : q.1 = old := by simpa using hold
      exact ⟨hqp,hne⟩
  · cases h

/-- The new side of each pair is a unique id of the current format. -/
def Current (T : Text) (identity : String) (pairs : Pairs) : Prop :=
  ∀ p ∈ pairs, ∃ key reference, p.2 = T.formatUniqueId identity key reference

theorem current_referenced (legacy : Formatter) (d : Description) (domainData : DomainData) :
    Current T identity (referencedIdPairs T identity legacy d domainData) := by
  intro p hp
  obtain ⟨⟨uid,vals⟩,_,hv⟩ := List.mem_filterMap.mp hp
  obtain ⟨v,_,rfl⟩ := Option.map_eq_some_iff.mp hv
  exact ⟨_,_,rfl⟩

theorem current_legacyReference (d : Description) (domainData : DomainData) :
    Current T identity (legacyReferenceIdPairs T identity d domainData) := by
  intro p hp
  unfold legacyReferenceIdPairs at hp
  split at hp
  · cases hp
  · obtain ⟨⟨uid,vals⟩,_,hv⟩ := List.mem_filterMap.mp hp
    obtain ⟨v,_,rfl⟩ := Option.map_eq_some_iff.mp hv
    exact ⟨_,_,rfl⟩

theorem current_composite (legacy : Formatter) (d : Description) (domainData : DomainData) :
    Current T identity (compositeIdPairs T identity legacy d domainData) := by
  intro p hp
  obtain ⟨composed,_,rfl⟩ := List.mem_map.mp hp
  exact ⟨_,_,rfl⟩

theorem collectUniqueIdRenames_current (h : collectUniqueIdRenames T identity descriptions data old = some new) :
    ∃ key reference, new = T.formatUniqueId identity key reference := by
  obtain ⟨hmem,_⟩ := resolveRenames_mem h
  rcases List.mem_append.mp hmem with hp | hp
  · obtain ⟨legacy,_,hp⟩ := List.mem_flatMap.mp hp
    obtain ⟨d,_,hp⟩ := List.mem_flatMap.mp hp
    split at hp
    · cases hp
    split at hp
    · exact current_composite legacy d _ _ hp
    split at hp
    · exact current_referenced legacy d _ _ hp
    · cases hp
  · obtain ⟨d,_,hp⟩ := List.mem_flatMap.mp hp
    split at hp
    · cases hp
    · exact current_legacyReference d _ _ hp

end Renames

def entriesForConfigEntry (reg : Registry) (entryId : String) : List RegistryEntry :=
  reg.entries.filter (RegistryEntry.OfEntry entryId)

/-- One turn of the loop of the migrations: an entity whose new id another entity has is removed. -/
def renameUniqueId (new : String → Option String) (reg : Registry) (e : RegistryEntry) : Except Registry Registry :=
  match new e.uniqueId with
  | none => .ok reg
  | some uniqueId =>
    match reg.getEntityId ⟨e.entityId.domain,domain,uniqueId⟩ with
    | none => raising reg (reg.setUniqueId e.entityId uniqueId)
    | some id =>
      if id = e.entityId then raising reg (reg.setUniqueId e.entityId uniqueId)
      else .ok (reg.removeWhere (fun x => x.entityId = e.entityId))

/-- The loop of the migrations over the entities it has listed before. -/
def renameUniqueIds (new : String → Option String) : Registry → List RegistryEntry → Except Registry Registry
  | reg, [] => .ok reg
  | reg, e :: rest =>
    match renameUniqueId new reg e with
    | .error r => .error r
    | .ok r => renameUniqueIds new r rest

/-- The new id of `migrate_entry_identity_namespace`. -/
def Text.namespaceRename (T : Text) (oldName identity uniqueId : String) : Option String :=
  (stripPrefix (T.prefixOf oldName) uniqueId).map (fun rest => T.prefixOf identity ++ rest)

def Text.migrateEntryIdentityNamespace (T : Text) (entryId oldName identity : String) (reg : Registry) :
  Except Registry Registry :=
  if oldName = "" ∨ oldName = identity then .ok reg
  else renameUniqueIds (T.namespaceRename oldName identity) reg (entriesForConfigEntry reg entryId)

def Text.migrateLegacyUniqueIds (T : Text) (entryId identity : String) (descriptions : List Description) (data : Data)
    (reg : Registry) : Except Registry Registry :=
  renameUniqueIds (collectUniqueIdRenames T identity descriptions data) reg (entriesForConfigEntry reg entryId)

def renamed (new : String → Option String) (e : RegistryEntry) : RegistryEntry :=
  match new e.uniqueId with
  | none => e
  | some uniqueId => { e with uniqueId := uniqueId }

section Loop
variable {new : String → Option String} {reg : Registry} {e : RegistryEntry}

theorem renamed_of_none (h : new e.uniqueId = none) : renamed new e = e := by
  unfold renamed
  rw [h]

theorem renamed_of_some {uniqueId : String} (h : new e.uniqueId = some uniqueId) :
    renamed new e = { e with uniqueId := uniqueId } := by
  unfold renamed
  rw [h]

@[simp] theorem renamed_entityId : (renamed new e).entityId = e.entityId := by
  unfold renamed
  split <;> rfl

@[simp] theorem renamed_platform : (renamed new e).platform = e.platform := by
  unfold renamed
  split <;> rfl

theorem renameUniqueId_spec (new : String → Option String) (he : e ∈ reg.entries) : Post (fun r => r = reg)
    (fun r => (∀ x ∈ r.entries, x = renamed new e ∨ (x ∈ reg.entries ∧ x.entityId ≠ e.entityId)) ∧
      ∀ x ∈ reg.entries, x.entityId ≠ e.entityId → x ∈ r.entries) (renameUniqueId new reg e) := by
  have hget : reg.get e.entityId = some e := Registry.get_eq_some_iff.mpr ⟨he,rfl⟩
  have hset : ∀ uniqueId, new e.uniqueId = some uniqueId → Post (fun r => r = reg)
      (fun r => (∀ x ∈ r.entries, x = renamed new e ∨ (x ∈ reg.entries ∧ x.entityId ≠ e.entityId)) ∧
        ∀ x ∈ reg.entries, x.entityId ≠ e.entityId →
          x ∈ r.entries) (raising reg (reg.setUniqueId e.entityId uniqueId)) := by
    intro uniqueId hnew
    cases hr : reg.setUniqueId e.entityId uniqueId with
    | none => rfl
    | some r =>
      refine ⟨fun x hx => ?_,fun x hx hne => Registry.mem_setUniqueId_of_ne hr hx hne⟩
      rcases Registry.mem_setUniqueId hr hx with ⟨y,hy,rfl⟩ | hold
      · obtain rfl : e = y := Option.some.inj (hget.symm.trans hy)
        exact Or.inl (renamed_of_some hnew).symm
      · exact Or.inr hold
  unfold renameUniqueId
  split
  · rename_i hnone
    refine ⟨fun x hx => ?_,fun x hx _ => hx⟩
    by_cases hid : x.entityId = e.entityId
    · rw [Registry.eq_of_entityId hx he hid,renamed_of_none hnone]
      exact Or.inl rfl
    · exact Or.inr ⟨hx,hid⟩
  · rename_i uniqueId hnew
    split
    · exact hset uniqueId hnew
    split
    · exact hset uniqueId hnew
    · -- the duplicate goes
      constructor
      · intro x hx
        obtain ⟨hmem,hne⟩ := List.mem_filter.mp hx
        exact Or.inr ⟨hmem,by simpa using hne⟩
      · intro x hx hne
        exact List.mem_filter.mpr ⟨hx,by simpa using hne⟩

theorem later_of_turn {listed : List RegistryEntry} {r : Registry}
    (hn : ((e :: listed).map RegistryEntry.entityId).Nodup)
    (hsub : ∀ x ∈ e :: listed, x ∈ reg.entries) (h : renameUniqueId new reg e = .ok r) :
      ∀ y ∈ listed, y ∈ r.entries := by
  intro y hy
  have hturn := renameUniqueId_spec new (hsub e (by simp))
  rw [h] at hturn
  refine hturn.2 y (hsub y (by simp [hy])) (fun hid => (List.nodup_cons.mp hn).1 ?_)
  exact List.mem_map.mpr ⟨y,hy,hid⟩

/-- The loop puts each listed entity under its new id or removes it, and leaves the others; one
that raises has done so with some of them. -/
theorem renameUniqueIds_spec {listed : List RegistryEntry} (hn : (listed.map RegistryEntry.entityId).Nodup)
    (hsub : ∀ e ∈ listed, e ∈ reg.entries) :
      Post (fun r => ∀ x ∈ r.entries, (∃ e ∈ listed, x = renamed new e) ∨ x ∈ reg.entries)
      (fun r => ∀ x ∈ r.entries, (∃ e ∈ listed, x = renamed new e) ∨
        (x ∈ reg.entries ∧ x.entityId ∉ listed.map RegistryEntry.entityId))
      (renameUniqueIds new reg listed) := by
  induction listed generalizing reg with
  | nil => exact fun x hx => Or.inr ⟨hx,by simp⟩
  | cons e rest ih =>
    obtain ⟨_,hnr⟩ := List.nodup_cons.mp hn
    have hturn := renameUniqueId_spec new (hsub e (by simp))
    unfold renameUniqueIds
    split
    · rename_i r hr
      rw [hr] at hturn
      obtain rfl : r = reg := hturn
      exact fun x hx => Or.inr hx
    · rename_i r hr
      rw [hr] at hturn
      obtain ⟨honly,_⟩ := hturn
      refine (ih hnr (later_of_turn hn hsub hr)).imp (fun s hs x hx => ?_) (fun s hs x hx => ?_)
      · rcases hs x hx with ⟨y,hy,hxy⟩ | hr'
        · exact Or.inl ⟨y,by simp [hy],hxy⟩
        · rcases honly x hr' with hxe | ⟨hold,_⟩
          · exact Or.inl ⟨e,by simp,hxe⟩
          · exact Or.inr hold
      · rcases hs x hx with ⟨y,hy,hxy⟩ | ⟨hr',hid⟩
        · exact Or.inl ⟨y,by simp [hy],hxy⟩
        · rcases honly x hr' with hxe | ⟨hold,hxe⟩
          · exact Or.inl ⟨e,by simp,hxe⟩
          · exact Or.inr ⟨hold,by simp [hxe,hid]⟩

theorem mem_entriesForConfigEntry {entryId : String} : e ∈ entriesForConfigEntry reg entryId ↔
    e ∈ reg.entries ∧ e.OfEntry entryId = true :=
  List.mem_filter

theorem renameUniqueIds_entry (new : String → Option String) (reg : Registry) (entryId : String) :
    Post (fun r => ∀ x ∈ r.entries, x ∈ reg.entries ∨ ∃ e ∈ reg.entries, e.OfEntry entryId = true ∧ x = renamed new e)
      (fun r => ∀ x ∈ r.entries, (x ∈ reg.entries ∧ x.OfEntry entryId = false) ∨
        ∃ e ∈ reg.entries, e.OfEntry entryId = true ∧ x = renamed new e)
      (renameUniqueIds new reg (entriesForConfigEntry reg entryId)) := by
  have hn : ((entriesForConfigEntry reg entryId).map RegistryEntry.entityId).Nodup :=
    (List.filter_sublist.map _).nodup reg.ids
  refine (renameUniqueIds_spec hn (fun e he => (mem_entriesForConfigEntry.mp he).1)).imp
    (fun r hr x hx => ?_) (fun r hr x hx => ?_)
  · rcases hr x hx with ⟨e,he,hxe⟩ | hold
    · obtain ⟨hmem,hof⟩ := mem_entriesForConfigEntry.mp he
      exact Or.inr ⟨e,hmem,hof,hxe⟩
    · exact Or.inl hold
  · rcases hr x hx with ⟨e,he,hxe⟩ | ⟨hold,hid⟩
    · obtain ⟨hmem,hof⟩ := mem_entriesForConfigEntry.mp he
      exact Or.inr ⟨e,hmem,hof,hxe⟩
    · refine Or.inl ⟨hold,Bool.eq_false_iff.mpr (fun hof => hid ?_)⟩
      exact List.mem_map_of_mem (mem_entriesForConfigEntry.mpr ⟨hold,hof⟩)

theorem kept_renameUniqueIds {listed : List RegistryEntry} {x : RegistryEntry}
    (hn : (listed.map RegistryEntry.entityId).Nodup)
    (hsub : ∀ e ∈ listed, e ∈ reg.entries) (hx : x ∈ reg.entries) (hnew : x ∈ listed → new x.uniqueId = none) :
    Post (fun r => x ∈ r.entries) (fun r => x ∈ r.entries) (renameUniqueIds new reg listed) := by
  induction listed generalizing reg with
  | nil => exact hx
  | cons e rest ih =>
    obtain ⟨hne,hnr⟩ := List.nodup_cons.mp hn
    have hturn := renameUniqueId_spec new (hsub e (by simp))
    unfold renameUniqueIds
    split
    · rename_i r hr
      rw [hr] at hturn
      obtain rfl : r = reg := hturn
      exact hx
    · rename_i r hr
      have hstays : x ∈ r.entries := by
        by_cases hid : x.entityId = e.entityId
        · obtain rfl := Registry.eq_of_entityId hx (hsub e (by simp)) hid
          simp only [renameUniqueId,hnew (by simp),Except.ok.injEq] at hr
          exact hr ▸ hx
        · rw [hr] at hturn
          exact hturn.2 x hx hid
      exact ih hnr (later_of_turn hn hsub hr) hstays (fun hmem => hnew (by simp [hmem]))

theorem mem_of_ok {listed : List RegistryEntry} {r : Registry} {x : RegistryEntry}
    (h : renameUniqueIds new reg listed = .ok r)
    (hn : (listed.map RegistryEntry.entityId).Nodup) (hsub : ∀ e ∈ listed, e ∈ reg.entries) (hx : x ∈ r.entries) :
    (∃ e ∈ listed, x = renamed new e) ∨ (x ∈ reg.entries ∧ x.entityId ∉ listed.map RegistryEntry.entityId) := by
  have hspec : Post _ _ (renameUniqueIds new reg listed) := renameUniqueIds_spec hn hsub
  rw [h] at hspec
  exact hspec x hx

theorem kept_of_ok {listed : List RegistryEntry} {r : Registry} {x : RegistryEntry}
    (h : renameUniqueIds new reg listed = .ok r)
    (hn : (listed.map RegistryEntry.entityId).Nodup) (hsub : ∀ e ∈ listed, e ∈ reg.entries) (hx : x ∈ reg.entries)
    (hnew : x ∈ listed → new x.uniqueId = none) : x ∈ r.entries := by
  have hkept : Post _ _ (renameUniqueIds new reg listed) := kept_renameUniqueIds hn hsub hx hnew
  rwa [h] at hkept

theorem kept_entry {entryId : String} {x : RegistryEntry} (hx : x ∈ reg.entries)
    (hnew : x.OfEntry entryId = true → new x.uniqueId = none) :
    x ∈ (ended (renameUniqueIds new reg (entriesForConfigEntry reg entryId))).entries :=
  Post.ended (kept_renameUniqueIds ((List.filter_sublist.map _).nodup reg.ids) (fun _ he =>
    (mem_entriesForConfigEntry.mp he).1) hx
    (fun hmem => hnew (mem_entriesForConfigEntry.mp hmem).2))

theorem mem_entry {entryId : String} {x : RegistryEntry}
    (hx : x ∈ (ended (renameUniqueIds new reg (entriesForConfigEntry reg entryId))).entries) :
    x ∈ reg.entries ∨ ∃ e ∈ reg.entries, e.OfEntry entryId = true ∧ x = renamed new e := by
  have hpost := (renameUniqueIds_entry new reg entryId).imp (fun _ h => h) (fun r hr y hy => (hr y hy).imp And.left id)
  exact hpost.ended x hx

end Loop
end TruenasCE.Identity
