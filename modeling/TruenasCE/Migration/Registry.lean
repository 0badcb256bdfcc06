import TruenasCE.Library.KeyedList
import TruenasCE.Library.Relocation

/-! # The entity registry

The part of the registry the migration reads and writes. Entity ids are unique, and so are
the unique ids of a domain and platform; both are kept as fields.
-/
namespace TruenasCE.Migration
open Library

structure EntityId where
  domain : String
  object : String
  deriving DecidableEq, Repr

/-- `RegistryEntryDisabler` -/
inductive Disabler
  | configEntry
  | device
  | hass
  | integration
  | user
  deriving DecidableEq, Repr

structure RegistryEntry where
  entityId : EntityId
  platform : String
  uniqueId : String
  configEntryId : Option String
  name : Option String := none
  icon : Option String := none
  areaId : Option String := none
  disabledBy : Option Disabler := none
  deriving DecidableEq, Repr

/-- What `async_get_entity_id` looks an entity up by. -/
structure Key where
  domain : String
  platform : String
  uniqueId : String
  deriving DecidableEq, Repr

def RegistryEntry.key (e : RegistryEntry) : Key := ⟨e.entityId.domain,e.platform,e.uniqueId⟩

/-- The fields `async_update_entity` is called with; `none` leaves a field alone. -/
structure Updates where
  name : Option String := none
  icon : Option String := none
  areaId : Option String := none
  disabledBy : Option Disabler := none
  deriving DecidableEq, Repr

def RegistryEntry.apply (e : RegistryEntry) (u : Updates) : RegistryEntry :=
  { e with
    name := u.name.or e.name
    icon := u.icon.or e.icon
    areaId := u.areaId.or e.areaId
    disabledBy := u.disabledBy.or e.disabledBy }

@[simp] theorem RegistryEntry.apply_key (e : RegistryEntry) (u : Updates) : (e.apply u).key = e.key := rfl
@[simp] theorem RegistryEntry.apply_entityId (e : RegistryEntry) (u : Updates) :
    (e.apply u).entityId = e.entityId := rfl

structure Registry where
  entries : List RegistryEntry
  ids : (entries.map RegistryEntry.entityId).Nodup
  keys : (entries.map RegistryEntry.key).Nodup

namespace Registry

def empty : Registry := ⟨[],by simp,by simp⟩

def get (reg : Registry) (id : EntityId) : Option RegistryEntry := lookupBy RegistryEntry.entityId reg.entries id

def find (reg : Registry) (k : Key) : Option RegistryEntry := lookupBy RegistryEntry.key reg.entries k

def getEntityId (reg : Registry) (k : Key) : Option EntityId := (reg.find k).map RegistryEntry.entityId

section Lookup
variable {reg : Registry} {id : EntityId} {k : Key} {e : RegistryEntry}

theorem get_eq_some_iff : reg.get id = some e ↔ e ∈ reg.entries ∧ e.entityId = id := lookupBy_eq_some_iff reg.ids
theorem find_eq_some_iff : reg.find k = some e ↔ e ∈ reg.entries ∧ e.key = k := lookupBy_eq_some_iff reg.keys
theorem get_eq_none_iff : reg.get id = none ↔ ∀ e ∈ reg.entries, e.entityId ≠ id := lookupBy_eq_none_iff

theorem find_key (he : e ∈ reg.entries) : reg.find e.key = some e := find_eq_some_iff.mpr ⟨he,rfl⟩

theorem getEntityId_eq_some_iff : reg.getEntityId k = some id ↔ ∃ e ∈ reg.entries, e.key = k ∧ e.entityId = id := by
  simp only [getEntityId,Option.map_eq_some_iff,find_eq_some_iff,and_assoc]

theorem getEntityId_of_find (h : reg.find k = some e) : reg.getEntityId k = some e.entityId := by simp [getEntityId,h]

theorem domain_of_getEntityId (h : reg.getEntityId k = some id) : id.domain = k.domain := by
  obtain ⟨e,_,rfl,rfl⟩ := getEntityId_eq_some_iff.mp h
  rfl

theorem eq_of_entityId {x : RegistryEntry} (he : e ∈ reg.entries) (hx : x ∈ reg.entries)
    (h : e.entityId = x.entityId) : e = x :=
  List.inj_on_of_nodup_map reg.ids he hx h

theorem ext_entries {r : Registry} (h : reg.entries = r.entries) : reg = r := by
  cases reg
  cases r
  cases h
  rfl

theorem apart : Placement.Apart reg.getEntityId := by
  intro k k' id hk hk'
  obtain ⟨e,he,rfl,hid⟩ := getEntityId_eq_some_iff.mp hk
  obtain ⟨x,hx,rfl,hid'⟩ := getEntityId_eq_some_iff.mp hk'
  rw [eq_of_entityId he hx (hid.trans hid'.symm)]

theorem get_of_getEntityId (h : reg.getEntityId k = some id) : ∃ e, reg.get id = some e ∧ e.key = k := by
  obtain ⟨e,he,hk,hid⟩ := getEntityId_eq_some_iff.mp h
  exact ⟨e,get_eq_some_iff.mpr ⟨he,hid⟩,hk⟩

theorem get_eq_none_iff_free : reg.get id = none ↔ Placement.Free reg.getEntityId id := by
  rw [get_eq_none_iff]
  constructor
  · intro h k hk
    obtain ⟨e,he,_,hid⟩ := getEntityId_eq_some_iff.mp hk
    exact h e he hid
  · intro h e he hid
    exact h e.key (getEntityId_eq_some_iff.mpr ⟨e,he,rfl,hid⟩)

end Lookup

/-- Put `e` in the place of the entry with its key. -/
def replace (reg : Registry) (e : RegistryEntry) (h : ∀ x ∈ reg.entries, x.entityId = e.entityId →
  x.key = e.key) : Registry where
  entries := replaceBy RegistryEntry.key reg.entries e
  ids := nodup_replaceBy reg.keys reg.ids h
  keys := by
    rw [map_key_replaceBy]
    exact reg.keys

theorem find_replace {reg : Registry} {e : RegistryEntry} {h} (k : Key) :
    (reg.replace e h).find k = if k = e.key then (reg.find k).map (fun _ => e) else reg.find k := lookupBy_replaceBy k

/-- `async_update_entity` with `new_entity_id`; it raises for an unknown entity, an id of
another domain and an id that is taken. -/
def rename (reg : Registry) (id new : EntityId) : Option Registry :=
  match reg.get id with
  | none => none
  | some e =>
    if h : new.domain = id.domain ∧
        ∀ x ∈ reg.entries, x.entityId = new → x.key = ({ e with entityId := new } : RegistryEntry).key then
      some (reg.replace { e with entityId := new } h.2)
    else none

/-- `async_update_entity` with the other fields. -/
def update (reg : Registry) (id : EntityId) (u : Updates) : Option Registry :=
  match h : reg.get id with
  | none => none
  | some e =>
    have same : ∀ x ∈ reg.entries, x.entityId = (e.apply u).entityId → x.key = (e.apply u).key := fun x hx hid => by
      rw [RegistryEntry.apply_key,eq_of_entityId hx (get_eq_some_iff.mp h).1 hid]
    some (reg.replace (e.apply u) same)

/-- Put `e` in the place of the entry with its entity id. -/
def replaceAt (reg : Registry) (e : RegistryEntry) (h : ∀ x ∈ reg.entries, x.key = e.key →
  x.entityId = e.entityId) : Registry where
  entries := replaceBy RegistryEntry.entityId reg.entries e
  ids := by
    rw [map_key_replaceBy]
    exact reg.ids
  keys := nodup_replaceBy reg.ids reg.keys h

/-- `async_update_entity` with `new_unique_id`; it raises for an unknown entity and for a unique
id that is taken, also by the entity itself. -/
def setUniqueId (reg : Registry) (id : EntityId) (uniqueId : String) : Option Registry :=
  match reg.get id with
  | none => none
  | some e =>
    if h : ∀ x ∈ reg.entries, x.key ≠ ({ e with uniqueId := uniqueId } : RegistryEntry).key then
      some (reg.replaceAt { e with uniqueId := uniqueId } (fun x hx hk => absurd hk (h x hx)))
    else none

/-- `async_remove` of the entries with a property. -/
def removeWhere (reg : Registry) (p : RegistryEntry → Bool) : Registry where
  entries := reg.entries.filter (fun e => !p e)
  ids := (List.filter_sublist.map _).nodup reg.ids
  keys := (List.filter_sublist.map _).nodup reg.keys

def register (reg : Registry) (e : RegistryEntry) : Option Registry :=
  if h : (∀ x ∈ reg.entries, x.entityId ≠ e.entityId) ∧ ∀ x ∈ reg.entries, x.key ≠ e.key then
    some {
      entries := reg.entries ++ [e]
      ids := by
        simpa [List.nodup_append,reg.ids] using h.1
      keys := by
        simpa [List.nodup_append,reg.keys] using h.2 }
  else none

/-- `async_get_or_create`; an entity that is registered goes to the config entry. -/
def getOrCreate (reg : Registry) (id : EntityId) (platform uniqueId entryId : String) : Option Registry :=
  match h : reg.find ⟨id.domain,platform,uniqueId⟩ with
  | none => reg.register ⟨id,platform,uniqueId,some entryId,none,none,none,none⟩
  | some e =>
    have same : ∀ x ∈ reg.entries, x.key = e.key → x.entityId = e.entityId := fun x hx hk => by
      rw [List.inj_on_of_nodup_map reg.keys hx (lookupBy_eq_some_iff reg.keys |>.mp h).1 hk]
    some (reg.replaceAt { e with configEntryId := some entryId } same)

section Changes
variable {reg r : Registry} {id new : EntityId} {e : RegistryEntry} {k : Key}

theorem rename_of_free (he : reg.get id = some e) (hd : new.domain = id.domain) (hf : reg.get new = none) :
    ∃ r, reg.rename id new = some r := by
  have hcond : new.domain = id.domain ∧
      ∀ x ∈ reg.entries, x.entityId = new → x.key = ({ e with entityId := new } : RegistryEntry).key :=
    ⟨hd,fun x hx hid => absurd hid (get_eq_none_iff.mp hf x hx)⟩
  refine ⟨reg.replace { e with entityId := new } hcond.2,?_⟩
  simp only [rename,he]
  exact dif_pos hcond

theorem find_rename (h : reg.rename id new = some r) : ∃ e, reg.get id = some e ∧ new.domain = id.domain ∧
    ∀ k, r.find k = if k = e.key then some { e with entityId := new } else reg.find k := by
  unfold rename at h
  split at h
  · cases h
  · rename_i e he
    split at h
    · rename_i hcond
      cases h
      refine ⟨e,he,hcond.1,fun k => ?_⟩
      obtain ⟨hmem,hid⟩ := get_eq_some_iff.mp he
      have hkey : ({ e with entityId := new } : RegistryEntry).key = e.key := by
        simp only [RegistryEntry.key,hcond.1,hid]
      rw [find_replace,hkey]
      split
      · rename_i hk
        rw [hk,find_key hmem]
        rfl
      · rfl
    · cases h

theorem length_rename (h : reg.rename id new = some r) : r.entries.length = reg.entries.length := by
  unfold rename at h
  split at h
  · cases h
  · split at h
    · cases h
      simp [replace,replaceBy]
    · cases h

theorem getEntityId_rename (h : reg.rename id new = some r) {k : Key} (hk : reg.getEntityId k = some id) :
    r.getEntityId = Function.update reg.getEntityId k (some new) := by
  obtain ⟨e,he,_,hfind⟩ := find_rename h
  obtain ⟨e',he',rfl⟩ := get_of_getEntityId hk
  obtain rfl : e = e' := Option.some.inj (he.symm.trans he')
  funext k
  unfold getEntityId
  rw [hfind k]
  by_cases hk : k = e.key
  · simp [hk]
  · simp [hk]

theorem update_of_get (he : reg.get id = some e) (u : Updates) : ∃ r, reg.update id u = some r ∧
    ∀ k, r.find k = if k = e.key then some (e.apply u) else reg.find k := by
  unfold update
  split
  · rename_i hn
    rw [he] at hn
    cases hn
  · rename_i e' he'
    obtain rfl : e = e' := Option.some.inj (he.symm.trans he')
    refine ⟨_,rfl,fun k => ?_⟩
    rw [find_replace,RegistryEntry.apply_key]
    split
    · rename_i hk
      rw [hk,find_key (get_eq_some_iff.mp he).1]
      rfl
    · rfl

theorem find_update {u : Updates} (h : reg.update id u = some r) : ∃ e, reg.get id = some e ∧
    ∀ k, r.find k = if k = e.key then some (e.apply u) else reg.find k := by
  cases he : reg.get id with
  | none =>
    unfold update at h
    split at h
    · cases h
    · simp_all
  | some e =>
    obtain ⟨r',hr',hfind⟩ := update_of_get he u
    obtain rfl : r' = r := Option.some.inj (hr'.symm.trans h)
    exact ⟨e,rfl,hfind⟩

theorem mem_register (h : reg.register e = some r) {x : RegistryEntry} : x ∈ r.entries ↔ x ∈ reg.entries ∨ x = e := by
  unfold register at h
  split at h
  · cases h
    simp
  · cases h

theorem mem_replaceAt {h} {x : RegistryEntry} (hx : x ∈ (reg.replaceAt e h).entries) :
    x = e ∨ (x ∈ reg.entries ∧ x.entityId ≠ e.entityId) :=
  mem_replaceBy hx

theorem mem_setUniqueId {uniqueId : String} (h : reg.setUniqueId id uniqueId = some r) {x : RegistryEntry}
    (hx : x ∈ r.entries) :
    (∃ e, reg.get id = some e ∧ x = { e with uniqueId := uniqueId }) ∨ (x ∈ reg.entries ∧ x.entityId ≠ id) := by
  unfold setUniqueId at h
  split at h
  · cases h
  · rename_i e he
    split at h
    · cases h
      rcases mem_replaceAt hx with rfl | ⟨hmem,hne⟩
      · exact Or.inl ⟨e,he,rfl⟩
      · exact Or.inr ⟨hmem,(get_eq_some_iff.mp he).2 ▸ hne⟩
    · cases h

theorem mem_setUniqueId_of_ne {uniqueId : String} (h : reg.setUniqueId id uniqueId = some r)
    {x : RegistryEntry} (hx : x ∈ reg.entries)
    (hne : x.entityId ≠ id) : x ∈ r.entries := by
  unfold setUniqueId at h
  split at h
  · cases h
  · rename_i e he
    split at h
    · cases h
      have hid : x.entityId ≠ e.entityId := (get_eq_some_iff.mp he).2 ▸ hne
      exact List.mem_map.mpr ⟨x,hx,if_neg hid⟩
    · cases h

theorem free_of_getOrCreate {platform uniqueId entryId : String}
    (h : reg.getOrCreate id platform uniqueId entryId = some r)
    (hn : reg.find ⟨id.domain,platform,uniqueId⟩ = none) : ∀ x ∈ reg.entries, x.entityId ≠ id := by
  unfold getOrCreate at h
  split at h
  · unfold register at h
    split at h
    · rename_i hfree
      exact hfree.1
    · cases h
  · rename_i e he
    rw [hn] at he
    cases he

/-- The entity of the key comes from the registry or is new; the others stay. -/
theorem mem_getOrCreate {platform uniqueId entryId : String} (h : reg.getOrCreate id platform uniqueId entryId = some r)
    {x : RegistryEntry} (hx : x ∈ r.entries) : x ∈ reg.entries ∨
      (reg.find ⟨id.domain,platform,uniqueId⟩ = none ∧ x = ⟨id,platform,uniqueId,some entryId,none,none,none,none⟩) ∨
      ∃ e, reg.find ⟨id.domain,platform,uniqueId⟩ = some e ∧ x = { e with configEntryId := some entryId } := by
  unfold getOrCreate at h
  split at h
  · rename_i hn
    rcases (mem_register h).mp hx with hold | hnew
    · exact Or.inl hold
    · exact Or.inr (Or.inl ⟨hn,hnew⟩)
  · rename_i e he
    cases h
    rcases mem_replaceAt hx with hnew | ⟨hold,_⟩
    · exact Or.inr (Or.inr ⟨e,he,hnew⟩)
    · exact Or.inl hold

end Changes
end Registry
end TruenasCE.Migration
