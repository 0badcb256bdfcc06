import Mathlib.Data.Finset.Basic
import Mathlib.Data.Finset.Image
import TruenasCE.Identity.Formats

/-! # The device registry and its migrations

Devices carry sets of identifiers. Up to a release of Home Assistant these are unique over all
devices and a device may belong to several config entries; from there on they are unique within
a config entry.
-/
namespace TruenasCE.Identity
open Library Migration Cleanup

abbrev Identifiers := Finset (String × String)

structure Device where
  id : String
  identifiers : Identifiers
  entries : List String
  deriving DecidableEq

/-- Devices whose identifiers may not meet. -/
def SameNamespace (perEntry : Bool) (X Y : Device) : Prop := perEntry = false ∨
  ∃ entryId ∈ X.entries, entryId ∈ Y.entries

instance (perEntry : Bool) (X Y : Device) : Decidable (SameNamespace perEntry X Y) :=
  inferInstanceAs (Decidable (_ ∨ _))

structure DeviceRegistry (perEntry : Bool) where
  devices : List Device
  ids : (devices.map Device.id).Nodup
  apart : ∀ X ∈ devices, ∀ Y ∈ devices, SameNamespace perEntry X Y → X.id ≠ Y.id → Disjoint X.identifiers Y.identifiers

namespace DeviceRegistry
variable {perEntry : Bool} (reg : DeviceRegistry perEntry)

def putList (l : List Device) (id : String) (r : Option Device) : List Device :=
  l.filterMap (fun Y => if Y.id = id then r else some Y)

theorem mem_putList {l : List Device} {id : String} {r : Option Device} {Y : Device} :
    Y ∈ putList l id r ↔ (Y ∈ l ∧ Y.id ≠ id) ∨ (r = some Y ∧ ∃ X ∈ l, X.id = id) := by
  rw [putList,List.mem_filterMap]
  constructor
  · rintro ⟨X,hX,h⟩
    split at h
    · rename_i hid
      exact Or.inr ⟨h,X,hX,hid⟩
    · rename_i hid
      obtain rfl := Option.some.inj h
      exact Or.inl ⟨hX,hid⟩
  · rintro (⟨hY,hid⟩ | ⟨rfl,X,hX,hid⟩)
    · exact ⟨Y,hY,if_neg hid⟩
    · exact ⟨X,hX,if_pos hid⟩

theorem map_id_putList {l : List Device} {id : String} {r : Option Device} (hr : ∀ Z ∈ r, Z.id = id) :
    ((putList l id r).map Device.id).Sublist (l.map Device.id) := by
  induction l with
  | nil => exact List.Sublist.slnil
  | cons Y rest ih =>
    by_cases hid : Y.id = id
    · cases r with
      | none =>
        simp only [putList,List.filterMap_cons,hid,if_true,List.map_cons] at ih ⊢
        exact ih.cons _
      | some Z =>
        simp only [putList,List.filterMap_cons,hid,if_true,List.map_cons,hr Z rfl] at ih ⊢
        exact ih.cons_cons _
    · simp only [putList,List.filterMap_cons,hid,if_false,List.map_cons] at ih ⊢
      exact ih.cons_cons _

def put (id : String) (r : Option Device) (hid : ∀ Z ∈ r, Z.id = id)
    (h : ∀ Z ∈ r, ∀ Y ∈ reg.devices, Y.id ≠ id → SameNamespace perEntry Z Y →
      Disjoint Z.identifiers Y.identifiers) : DeviceRegistry perEntry where
  devices := putList reg.devices id r
  ids := (map_id_putList hid).nodup reg.ids
  apart := by
    intro X hX Y hY hns hne
    have hsymm : ∀ {X Y : Device}, SameNamespace perEntry X Y → SameNamespace perEntry Y X := by
      rintro X Y (h | ⟨entryId,hX,hY⟩)
      · exact Or.inl h
      · exact Or.inr ⟨entryId,hY,hX⟩
    rcases mem_putList.mp hX with ⟨hXold,hXid⟩ | ⟨hXnew,_⟩
    · rcases mem_putList.mp hY with ⟨hYold,_⟩ | ⟨hYnew,_⟩
      · exact reg.apart X hXold Y hYold hns hne
      · exact (h Y hYnew X hXold hXid (hsymm hns)).symm
    · rcases mem_putList.mp hY with ⟨hYold,hYid⟩ | ⟨hYnew,_⟩
      · exact h X hXnew Y hYold hYid hns
      · exact absurd ((hid X hXnew).trans (hid Y hYnew).symm) hne

/-- `async_update_device` with `new_identifiers`; it raises if another device has one of them. -/
def update (X : Device) (identifiers : Identifiers) : Option (DeviceRegistry perEntry) :=
  if h : ∀ Y ∈ reg.devices, Y.id ≠ X.id → SameNamespace perEntry X Y → Disjoint identifiers Y.identifiers then
    some (reg.put X.id (some { X with identifiers := identifiers }) (by simp) (by simpa [SameNamespace] using h))
  else none

/-- `async_remove_device` -/
def remove (id : String) : DeviceRegistry perEntry := reg.put id none (by simp) (by simp)

end DeviceRegistry

structure Registries (perEntry : Bool) where
  entities : Registry
  devices : DeviceRegistry perEntry

/-- What the migrations read; `attached` are the devices of the entities. -/
structure Setup where
  text : Text
  entryId : String
  name : String
  identity : String
  hostname : String
  perEntry : Bool
  attached : EntityId → Option String
  snapshot : Snapshot

namespace Setup
variable (c : Setup)

def ofEntry (X : Device) : Bool := decide (c.entryId ∈ X.entries)

/-- `_is_shared_device` -/
def isShared (X : Device) : Bool := !c.perEntry && decide (1 < X.entries.length)

/-- The devices that `_find_entry_device` looks at. -/
def inNamespace (X : Device) : Bool := !c.perEntry || c.ofEntry X

def findEntryDevice (reg : DeviceRegistry c.perEntry) (identifiers : Identifiers) : Option Device :=
  reg.devices.find? (fun X => c.inNamespace X && decide (¬ Disjoint X.identifiers identifiers))

def entriesForDevice (reg : Registry) (id : String) : List RegistryEntry :=
  reg.entries.filter (fun e => c.attached e.entityId = some id)

def updateDevice (st : Registries c.perEntry) (X : Device) (identifiers : Identifiers) :
  Except (Registries c.perEntry) (Registries c.perEntry) :=
  match st.devices.update X identifiers with
  | none => .error st
  | some devices => .ok { st with devices := devices }

def renameDeviceIdentifiers (st : Registries c.perEntry) (X : Device) (identifiers : Identifiers) :
    Except (Registries c.perEntry) (Registries c.perEntry) :=
  match c.findEntryDevice st.devices identifiers with
  | none => c.updateDevice st X identifiers
  | some colliding =>
    if colliding.id = X.id then c.updateDevice st X identifiers
    else if c.entriesForDevice st.entities X.id ≠ [] then .ok st
    else .ok { st with devices := st.devices.remove X.id }

def newIdentifier (i : String × String) : String × String :=
  if i.1 = domain then
    match stripPrefix (c.name ++ "_") i.2 with
    | none => i
    | some rest => (i.1,c.identity ++ "_" ++ rest)
  else i

def newIdentifiers (identifiers : Identifiers) : Identifiers := identifiers.image c.newIdentifier

def renameDevice (st : Registries c.perEntry) (X : Device) : Except (Registries c.perEntry) (Registries c.perEntry) :=
  if c.isShared X then .ok st
  else if c.newIdentifiers X.identifiers = X.identifiers then .ok st
  else c.renameDeviceIdentifiers st X (c.newIdentifiers X.identifiers)

def renameDevices : Registries c.perEntry → List Device → Except (Registries c.perEntry) (Registries c.perEntry)
  | st, [] => .ok st
  | st, X :: rest =>
    match c.renameDevice st X with
    | .error t => .error t
    | .ok t => renameDevices t rest

def onEntities (st : Registries c.perEntry) : Except Registry Registry →
  Except (Registries c.perEntry) (Registries c.perEntry)
  | .error reg => .error { st with entities := reg }
  | .ok reg => .ok { st with entities := reg }

def migrateEntryIdentityNamespace (st : Registries c.perEntry) :
  Except (Registries c.perEntry) (Registries c.perEntry) :=
  c.onEntities st (c.text.migrateEntryIdentityNamespace c.entryId c.name c.identity st.entities) >>= fun t =>
    if c.name = "" ∨ c.name = c.identity then .ok t else c.renameDevices t (t.devices.devices.filter c.ofEntry)

def migrateUniqueIds (st : Registries c.perEntry) : Except (Registries c.perEntry) (Registries c.perEntry) :=
  c.onEntities st (migrateLegacyUniqueIds c.text c.identity c.entryId c.snapshot st.entities)

/-- `_legacy_format_device_identifier` -/
def legacyDeviceIdentifier : String × String := (domain,c.identity ++ "_" ++ c.hostname)

def migrateLegacyDeviceIdentifier (st : Registries c.perEntry) :
  Except (Registries c.perEntry) (Registries c.perEntry) :=
  match c.findEntryDevice st.devices {c.legacyDeviceIdentifier} with
  | none => .ok st
  | some X => c.renameDeviceIdentifiers st X {(domain,c.identity)}

/-- The migrations of `async_setup_entry`, in their order. -/
def migrate (st : Registries c.perEntry) : Except (Registries c.perEntry) (Registries c.perEntry) :=
  c.migrateEntryIdentityNamespace st >>= fun t => c.migrateUniqueIds t >>= c.migrateLegacyDeviceIdentifier

end Setup
end TruenasCE.Identity
