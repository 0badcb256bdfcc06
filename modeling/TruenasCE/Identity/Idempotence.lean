import TruenasCE.Identity.Devices
import TruenasCE.Identity.Displacement

/-! # The startup migrations a second time

After a setup that ran through, the same migrations run again on what they left. Nothing may
change then: no rename, no removal.
-/
namespace TruenasCE.Identity
open Library Migration Cleanup

namespace Setup
variable (c : Setup)

/-- The migration of the namespace returns at once. -/
def Inactive : Prop := c.name = "" ∨ c.name = c.identity

instance : Decidable c.Inactive := inferInstanceAs (Decidable (_ ∨ _))

def namespaceRename (uniqueId : String) : Option String :=
  if c.Inactive then none else c.text.namespaceRename c.name c.identity uniqueId

def formatRename (uniqueId : String) : Option String := uniqueIdRenames c.text c.identity c.snapshot uniqueId

def movedId (uniqueId : String) : String := (c.namespaceRename uniqueId).getD uniqueId

def finalId (uniqueId : String) : String := (c.formatRename (c.movedId uniqueId)).getD (c.movedId uniqueId)

/-- Neither of the renames has the id. -/
def Still (uniqueId : String) : Prop := c.namespaceRename uniqueId = none ∧ c.formatRename uniqueId = none

/-- The migration of the namespace does not remove the entity. -/
def Moves (reg : Registry) (e : RegistryEntry) : Prop := ¬ Displaced c.namespaceRename c.entryId reg.entries e

/-- Neither of the migrations removes the entity. -/
def Stays (reg : Registry) (e : RegistryEntry) : Prop := c.Moves reg e ∧
  ¬ Displaced c.formatRename c.entryId (displace c.namespaceRename c.entryId reg.entries) (renamed c.namespaceRename e)

/-- The device has an entity that the migration of the namespace does not remove. -/
def OccupiedFirst (reg : Registry) (id : String) : Prop :=
  ∃ e ∈ reg.entries, c.attached e.entityId = some id ∧ c.Moves reg e

/-- The device has an entity that neither of the migrations removes. -/
def Occupied (reg : Registry) (id : String) : Prop :=
  ∃ e ∈ reg.entries, c.attached e.entityId = some id ∧ c.Stays reg e

/-- The migration of the namespace looks at the device. -/
def Renames (X : Device) : Prop := ¬ c.Inactive ∧ c.ofEntry X = true ∧ c.isShared X = false

/-- None of the device migrations renames the device. -/
def Fixed (X : Device) : Prop := (c.Renames X → c.newIdentifiers X.identifiers = X.identifiers) ∧
  c.legacyDeviceIdentifier ∉ X.identifiers

def systemIdentifiers : Identifiers := {(domain,c.identity)}

section Condition
variable (st : Registries c.perEntry) (id : String) (I new : Identifiers)

/-- A device that no migration renames has one of the new identifiers, and is found before the device `id`, which has
the identifiers `I`. -/
def Rivalled : Prop := ∃ Y ∈ st.devices.devices, Y.id ≠ id ∧ c.inNamespace Y = true ∧ c.Fixed Y ∧
  ¬ Disjoint Y.identifiers new ∧ (Disjoint I new ∨ Precedes (st.devices.devices.map Device.id) Y.id id)

/-- A device that a migration renames has or gets one of the new identifiers. -/
def Contested : Prop := ∃ Y ∈ st.devices.devices, Y.id ≠ id ∧ c.inNamespace Y = true ∧ ¬ c.Fixed Y ∧
  ¬ Disjoint (Y.identifiers ∪ c.newIdentifiers Y.identifiers) new

/-- With the identifiers `I` the device is not renamed again, or it is a duplicate with entities for good. -/
def Rests : Prop := c.newIdentifiers I = I ∨ (c.Rivalled st id I (c.newIdentifiers I) ∧ c.Occupied st.entities id)

/-- The device comes to rest if the migration of the namespace leaves it with the identifiers `I`. -/
structure Ends : Prop where
  plain : c.legacyDeviceIdentifier ∉ I → c.Rests st id I
  system : c.legacyDeviceIdentifier ∈ I → ¬ c.Rivalled st id I c.systemIdentifiers → c.Rests st id c.systemIdentifiers
  duplicate : c.legacyDeviceIdentifier ∈ I → c.Rivalled st id I c.systemIdentifiers ∨ c.Contested st id c.systemIdentifiers →
    c.Occupied st.entities id → c.Rests st id I

end Condition

/-- What the migrations give is not renamed again, and the duplicates of devices they leave stay duplicates. -/
structure Settled (st : Registries c.perEntry) : Prop where
  entities : ∀ e ∈ st.entities.entries, e.OfEntry c.entryId = true → c.Stays st.entities e →
    c.Still (c.finalId e.uniqueId)
  renamed : ∀ X ∈ st.devices.devices, c.Renames X → c.newIdentifiers X.identifiers = X.identifiers ∨
    ¬ c.Rivalled st X.id X.identifiers (c.newIdentifiers X.identifiers) →
      c.Ends st X.id (c.newIdentifiers X.identifiers)
  duplicates : ∀ X ∈ st.devices.devices, c.Renames X → c.newIdentifiers X.identifiers ≠ X.identifiers →
    c.Rivalled st X.id X.identifiers (c.newIdentifiers X.identifiers) ∨
      c.Contested st X.id (c.newIdentifiers X.identifiers) →
    c.OccupiedFirst st.entities X.id → c.Ends st X.id X.identifiers

/-- None of the migrations changes the registries. -/
def Quiet (t : Registries c.perEntry) : Prop :=
  c.migrateEntryIdentityNamespace t = .ok t ∧ c.migrateUniqueIds t = .ok t ∧ c.migrateLegacyDeviceIdentifier t = .ok t

section Entities
variable {c} {new : String → Option String} {reg r : Registry} {e x : RegistryEntry} {id : String}

theorem quiet_renameUniqueIds {listed : List RegistryEntry} (h : ∀ e ∈ listed, new e.uniqueId = none) :
    renameUniqueIds new reg listed = .ok reg := by
  induction listed with
  | nil => rfl
  | cons e rest ih =>
    have hturn : renameUniqueId new reg e = .ok reg := by simp [renameUniqueId,h e (by simp)]
    rw [renameUniqueIds,hturn]
    exact ih (fun x hx => h x (by simp [hx]))

theorem migrateEntryIdentityNamespace_eq (reg : Registry) :
    c.text.migrateEntryIdentityNamespace c.entryId c.name c.identity reg =
    renameUniqueIds c.namespaceRename reg (entriesForConfigEntry reg c.entryId) := by
  unfold Text.migrateEntryIdentityNamespace
  by_cases h : c.Inactive
  · have hnone : ∀ uniqueId, c.namespaceRename uniqueId = none := fun _ => if_pos h
    rw [quiet_renameUniqueIds (fun e _ => hnone e.uniqueId)]
    exact if_pos h
  · have heq : c.namespaceRename = c.text.namespaceRename c.name c.identity := funext (fun _ => if_neg h)
    rw [heq]
    exact if_neg h

theorem renamed_uniqueId : (renamed new e).uniqueId = (new e.uniqueId).getD e.uniqueId := by
  cases h : new e.uniqueId with
  | none => rw [renamed_of_none h,Option.getD_none]
  | some uniqueId => rw [renamed_of_some h,Option.getD_some]

theorem renamed_ofEntry {entryId : String} : (renamed new e).OfEntry entryId = e.OfEntry entryId := by
  cases h : new e.uniqueId with
  | none => rw [renamed_of_none h]
  | some uniqueId =>
    rw [renamed_of_some h]
    rfl

theorem finalId_eq : (renamed c.formatRename (renamed c.namespaceRename e)).uniqueId = c.finalId e.uniqueId := by
  rw [renamed_uniqueId,renamed_uniqueId]
  rfl

theorem mem_final : x ∈ displace c.formatRename c.entryId (displace c.namespaceRename c.entryId reg.entries) ↔
    ∃ e ∈ reg.entries, c.Stays reg e ∧
      ((e.OfEntry c.entryId = true ∧ x = renamed c.formatRename (renamed c.namespaceRename e)) ∨
        (e.OfEntry c.entryId = false ∧ x = e)) := by
  rw [mem_displace]
  constructor
  · rintro ⟨y,hy,hdy,hx⟩
    obtain ⟨e,he,hd,⟨hof,rfl⟩ | ⟨hof,rfl⟩⟩ := mem_displace.mp hy
    · rw [renamed_ofEntry] at hx
      rcases hx with ⟨_,rfl⟩ | ⟨hnot,_⟩
      · exact ⟨e,he,⟨hd,hdy⟩,Or.inl ⟨hof,rfl⟩⟩
      · exact absurd (hof.symm.trans hnot) (by simp)
    · rcases hx with ⟨hyes,_⟩ | ⟨_,rfl⟩
      · exact absurd (hof.symm.trans hyes) (by simp)
      · refine ⟨x,he,⟨hd,fun hd' => ?_⟩,Or.inr ⟨hof,rfl⟩⟩
        exact absurd (hof.symm.trans (renamed_ofEntry.symm.trans hd'.1.1)) (by simp)
  · rintro ⟨e,he,⟨hd,hdy⟩,⟨hof,rfl⟩ | ⟨hof,rfl⟩⟩
    · exact ⟨renamed c.namespaceRename e,mem_displace.mpr ⟨e,he,hd,Or.inl ⟨hof,rfl⟩⟩,hdy,
        Or.inl ⟨renamed_ofEntry.trans hof,rfl⟩⟩
    · refine ⟨x,mem_displace.mpr ⟨x,he,hd,Or.inr ⟨hof,rfl⟩⟩,fun hd' => ?_,Or.inr ⟨hof,rfl⟩⟩
      exact absurd (hof.symm.trans hd'.1.1) (by simp)

theorem entriesForDevice_ne_nil : c.entriesForDevice reg id ≠ [] ↔ ∃ e ∈ reg.entries, c.attached e.entityId = some id := by
  simp [entriesForDevice,List.filter_eq_nil_iff]

theorem occupiedFirst_iff (h : r.entries = displace c.namespaceRename c.entryId reg.entries) :
    c.entriesForDevice r id ≠ [] ↔ c.OccupiedFirst reg id := by
  rw [entriesForDevice_ne_nil,h]
  constructor
  · rintro ⟨y,hy,hid⟩
    obtain ⟨e,he,hd,⟨_,rfl⟩ | ⟨_,rfl⟩⟩ := mem_displace.mp hy
    · exact ⟨e,he,by rwa [renamed_entityId] at hid,hd⟩
    · exact ⟨y,he,hid,hd⟩
  · rintro ⟨e,he,hid,hd⟩
    by_cases hof : e.OfEntry c.entryId = true
    · exact ⟨renamed c.namespaceRename e,mem_displace.mpr ⟨e,he,hd,Or.inl ⟨hof,rfl⟩⟩,by rwa [renamed_entityId]⟩
    · exact ⟨e,mem_displace.mpr ⟨e,he,hd,Or.inr ⟨by simpa using hof,rfl⟩⟩,hid⟩

theorem occupied_iff
    (h : r.entries = displace c.formatRename c.entryId (displace c.namespaceRename c.entryId reg.entries)) :
    c.entriesForDevice r id ≠ [] ↔ c.Occupied reg id := by
  rw [entriesForDevice_ne_nil,h]
  constructor
  · rintro ⟨y,hy,hid⟩
    obtain ⟨e,he,hs,⟨_,rfl⟩ | ⟨_,rfl⟩⟩ := mem_final.mp hy
    · exact ⟨e,he,by rwa [renamed_entityId,renamed_entityId] at hid,hs⟩
    · exact ⟨y,he,hid,hs⟩
  · rintro ⟨e,he,hid,hs⟩
    by_cases hof : e.OfEntry c.entryId = true
    · exact ⟨_,mem_final.mpr ⟨e,he,hs,Or.inl ⟨hof,rfl⟩⟩,by rwa [renamed_entityId,renamed_entityId]⟩
    · exact ⟨e,mem_final.mpr ⟨e,he,hs,Or.inr ⟨by simpa using hof,rfl⟩⟩,hid⟩

end Entities

section Devices
variable {c} {base st t : Registries c.perEntry} {X Y Z W : Device} {id : String} {I identifiers : Identifiers}

theorem eq_of_device (hX : X ∈ st.devices.devices) (hY : Y ∈ st.devices.devices) (h : X.id = Y.id) : X = Y :=
  List.inj_on_of_nodup_map st.devices.ids hX hY h

theorem Renames.inNamespace (h : c.Renames X) : c.inNamespace X = true := by
  simp [Setup.inNamespace,h.2.1]

theorem mem_of_findEntryDevice {reg : DeviceRegistry c.perEntry} (h : c.findEntryDevice reg identifiers = some X) :
    X ∈ reg.devices ∧ c.inNamespace X = true ∧ ¬ Disjoint X.identifiers identifiers := by
  have hmatch := List.find?_some h
  simp only [Bool.and_eq_true,decide_eq_true_eq] at hmatch
  exact ⟨List.mem_of_find?_eq_some h,hmatch⟩

/-- What a rename of a device does: it leaves a duplicate with entities, removes one without, or updates. -/
inductive DeviceTurn (c : Setup) (st : Registries c.perEntry) (X : Device) (identifiers : Identifiers)
    (t : Registries c.perEntry) : Prop
  | left (Y : Device) (hfind : c.findEntryDevice st.devices identifiers = some Y) (hne : Y.id ≠ X.id)
    (hoccupied : c.entriesForDevice st.entities X.id ≠ []) (ht : t = st)
  | removed (Y : Device) (hfind : c.findEntryDevice st.devices identifiers = some Y) (hne : Y.id ≠ X.id)
    (hempty : c.entriesForDevice st.entities X.id = []) (hentities : t.entities = st.entities)
    (hdevices : t.devices.devices = DeviceRegistry.putList st.devices.devices X.id none)
  | updated (hfree : ∀ Y, c.findEntryDevice st.devices identifiers = some Y → Y.id = X.id)
    (hentities : t.entities = st.entities) (hdevices : t.devices.devices =
      DeviceRegistry.putList st.devices.devices X.id (some { X with identifiers := identifiers }))

theorem updateDevice_ok (h : c.updateDevice st X identifiers = .ok t) : t.entities = st.entities ∧
    t.devices.devices = DeviceRegistry.putList st.devices.devices X.id
      (some { X with identifiers := identifiers }) := by
  unfold updateDevice at h
  split at h
  · cases h
  · rename_i devices hdevices
    unfold DeviceRegistry.update at hdevices
    split at hdevices
    · cases hdevices
      cases h
      exact ⟨rfl,rfl⟩
    · cases hdevices

theorem deviceTurn (h : c.renameDeviceIdentifiers st X identifiers = .ok t) : c.DeviceTurn st X identifiers t := by
  unfold renameDeviceIdentifiers at h
  split at h
  · rename_i hnone
    obtain ⟨hentities,hdevices⟩ := updateDevice_ok h
    exact .updated (fun Y hY => absurd (hnone.symm.trans hY) (by simp)) hentities hdevices
  · rename_i Y hfind
    split at h
    · rename_i hid
      obtain ⟨hentities,hdevices⟩ := updateDevice_ok h
      exact .updated (fun W hW => Option.some.inj (hfind.symm.trans hW) ▸ hid) hentities hdevices
    · rename_i hne
      split at h
      · rename_i hoccupied
        exact .left Y hfind hne hoccupied (Except.ok.inj h).symm
      · rename_i hempty
        cases h
        exact .removed Y hfind hne (not_not.mp hempty) rfl rfl

theorem DeviceTurn.frame (h : c.DeviceTurn st X identifiers t) : t.entities = st.entities ∧
    ∀ Z, Z.id ≠ X.id → (Z ∈ t.devices.devices ↔ Z ∈ st.devices.devices) := by
  cases h with
  | left _ _ _ _ ht =>
    subst ht
    exact ⟨rfl,fun _ _ => Iff.rfl⟩
  | removed _ _ _ _ hentities hdevices =>
    refine ⟨hentities,fun Z hne => ?_⟩
    rw [hdevices,DeviceRegistry.mem_putList]
    simp [hne]
  | updated _ hentities hdevices =>
    refine ⟨hentities,fun Z hne => ?_⟩
    rw [hdevices,DeviceRegistry.mem_putList]
    constructor
    · rintro (⟨hZ,_⟩ | ⟨hZ,_⟩)
      · exact hZ
      · obtain rfl := Option.some.inj hZ
        exact absurd rfl hne
    · exact fun hZ => Or.inl ⟨hZ,hne⟩

theorem DeviceTurn.order (h : c.DeviceTurn st X identifiers t) :
    (t.devices.devices.map Device.id).Sublist (st.devices.devices.map Device.id) := by
  cases h with
  | left _ _ _ _ ht =>
    subst ht
    exact List.Sublist.refl _
  | removed _ _ _ _ _ hdevices =>
    rw [hdevices]
    exact DeviceRegistry.map_id_putList (by simp)
  | updated _ _ hdevices =>
    rw [hdevices]
    exact DeviceRegistry.map_id_putList (by simp)

theorem DeviceTurn.own (h : c.DeviceTurn st X identifiers t) (hX : X ∈ st.devices.devices)
    (hZ : Z ∈ t.devices.devices) (hid : Z.id = X.id) :
    (Z = X ∧ t = st ∧ c.entriesForDevice st.entities X.id ≠ [] ∧
      ∃ Y, c.findEntryDevice st.devices identifiers = some Y ∧ Y.id ≠ X.id) ∨
    (Z = { X with identifiers := identifiers } ∧
      ∀ Y, c.findEntryDevice st.devices identifiers = some Y → Y.id = X.id) := by
  cases h with
  | left Y hfind hne hoccupied ht =>
    subst ht
    exact Or.inl ⟨eq_of_device hZ hX hid,rfl,hoccupied,Y,hfind,hne⟩
  | removed _ _ _ _ _ hdevices =>
    rw [hdevices,DeviceRegistry.mem_putList] at hZ
    simp [hid] at hZ
  | updated hfree _ hdevices =>
    rw [hdevices,DeviceRegistry.mem_putList] at hZ
    rcases hZ with ⟨_,hne⟩ | ⟨hnew,_⟩
    · exact absurd hid hne
    · exact Or.inr ⟨(Option.some.inj hnew).symm,hfree⟩

theorem DeviceTurn.of_free (h : c.DeviceTurn st X identifiers t) (hX : X ∈ st.devices.devices)
    (hfree : ∀ Y, c.findEntryDevice st.devices identifiers = some Y → Y.id = X.id) :
    { X with identifiers := identifiers } ∈ t.devices.devices := by
  cases h with
  | left Y hfind hne _ _ => exact absurd (hfree Y hfind) hne
  | removed Y hfind hne _ _ _ => exact absurd (hfree Y hfind) hne
  | updated _ _ hdevices =>
    rw [hdevices,DeviceRegistry.mem_putList]
    exact Or.inr ⟨rfl,X,hX,rfl⟩

theorem DeviceTurn.of_taken (h : c.DeviceTurn st X identifiers t) (hX : X ∈ st.devices.devices)
    (hfind : c.findEntryDevice st.devices identifiers = some Y) (hne : Y.id ≠ X.id)
    (hoccupied : c.entriesForDevice st.entities X.id ≠ []) : X ∈ t.devices.devices := by
  cases h with
  | left _ _ _ _ ht =>
    subst ht
    exact hX
  | removed _ _ _ hempty _ _ => exact absurd hempty hoccupied
  | updated hfree _ _ => exact absurd (hfree Y hfind) hne

theorem renameDevice_cases (hactive : ¬ c.Inactive) (hof : c.ofEntry X = true) (h : c.renameDevice st X = .ok t) :
    (t = st ∧ (c.Renames X → c.newIdentifiers X.identifiers = X.identifiers)) ∨
      (c.Renames X ∧ c.newIdentifiers X.identifiers ≠ X.identifiers ∧
        c.DeviceTurn st X (c.newIdentifiers X.identifiers) t) := by
  unfold renameDevice at h
  split at h
  · rename_i hshared
    exact Or.inl ⟨(Except.ok.inj h).symm,fun hr => absurd hshared (by simp [hr.2.2])⟩
  · rename_i hshared
    split at h
    · rename_i hsame
      exact Or.inl ⟨(Except.ok.inj h).symm,fun _ => hsame⟩
    · rename_i hold
      exact Or.inr ⟨⟨hactive,hof,by simpa using hshared⟩,hold,deviceTurn h⟩

/-- The registry of `st` comes from the one of `base`: no device changes its place, and none that no migration renames is
touched. -/
structure Follows (c : Setup) (base st : Registries c.perEntry) : Prop where
  order : (st.devices.devices.map Device.id).Sublist (base.devices.devices.map Device.id)
  fixed : ∀ Y ∈ base.devices.devices, c.Fixed Y → Y ∈ st.devices.devices

/-- Each device is one of the start, or it has the new identifiers of one. -/
structure Progress (c : Setup) (base st : Registries c.perEntry) : Prop extends Follows c base st where
  origin : ∀ Z ∈ st.devices.devices, ∃ X ∈ base.devices.devices,
    Z = X ∨ (c.Renames X ∧ Z = { X with identifiers := c.newIdentifiers X.identifiers })

theorem Progress.refl (st : Registries c.perEntry) (r : Registry) : Progress c st { st with entities := r } :=
  ⟨⟨List.Sublist.refl _,fun _ hY _ => hY⟩,fun Z hZ => ⟨Z,hZ,Or.inl rfl⟩⟩

/-- A turn of a device that is renamed keeps what `Follows` says. -/
theorem Follows.turn (h : Follows c base st) (hX : X ∈ st.devices.devices) (hnot : ¬ c.Fixed X)
    (hturn : c.DeviceTurn st X identifiers t) : Follows c base t := by
  obtain ⟨_,hothers⟩ := hturn.frame
  refine ⟨hturn.order.trans h.order,fun Y hY hfixed => ?_⟩
  have hYst := h.fixed Y hY hfixed
  refine (hothers Y (fun hid => hnot ?_)).mpr hYst
  rwa [← eq_of_device hYst hX hid]

theorem Progress.turn (h : Progress c base st) (hactive : ¬ c.Inactive) (hof : c.ofEntry X = true)
    (hbase : X ∈ base.devices.devices) (hX : X ∈ st.devices.devices) (hrun : c.renameDevice st X = .ok t) :
    Progress c base t ∧ t.entities = st.entities ∧
      ∀ Z, Z.id ≠ X.id → (Z ∈ t.devices.devices ↔ Z ∈ st.devices.devices) := by
  rcases renameDevice_cases hactive hof hrun with ⟨rfl,_⟩ | ⟨hren,hold,hturn⟩
  · exact ⟨h,rfl,fun _ _ => Iff.rfl⟩
  · obtain ⟨hentities,hothers⟩ := hturn.frame
    refine ⟨⟨h.toFollows.turn hX (fun hfixed => hold (hfixed.1 hren)) hturn,fun Z hZ => ?_⟩,hentities,hothers⟩
    by_cases hid : Z.id = X.id
    · rcases hturn.own hX hZ hid with ⟨hZX,_⟩ | ⟨hZX,_⟩
      · exact ⟨X,hbase,Or.inl hZX⟩
      · exact ⟨X,hbase,Or.inr ⟨hren,hZX⟩⟩
    · exact h.origin Z ((hothers Z hid).mp hZ)

theorem Rivalled.find (hf : Follows c base st) (h : c.Rivalled base Z.id Z.identifiers identifiers)
    (hZ : Z ∈ st.devices.devices) : ∃ Y, c.findEntryDevice st.devices identifiers = some Y ∧ Y.id ≠ Z.id := by
  obtain ⟨Y,hY,hne,hns,hfixed,hmeet,horder⟩ := h
  have hYst := hf.fixed Y hY hfixed
  obtain ⟨W,hW⟩ : ∃ W, c.findEntryDevice st.devices identifiers = some W :=
    Option.isSome_iff_exists.mp (List.find?_isSome.mpr ⟨Y,hYst,by simp [hns,hmeet]⟩)
  refine ⟨W,hW,fun hid => ?_⟩
  obtain ⟨hWst,_,hWmeet⟩ := mem_of_findEntryDevice hW
  obtain rfl := eq_of_device hWst hZ hid
  have hfirst : Precedes (st.devices.devices.map Device.id) W.id Y.id := by
    refine (precedes_of_find hW hYst (by simp [hns,hmeet]) ?_).map Device.id
    rintro rfl
    exact hne rfl
  have hlast := (horder.resolve_left hWmeet).restrict base.devices.ids hf.order (List.mem_map_of_mem hYst)
    (List.mem_map_of_mem hWst)
  exact hfirst.asymm st.devices.ids hlast

theorem rivals_of_find (hp : Progress c base st) (hZ : Z ∈ st.devices.devices) (hns : c.inNamespace Z = true)
    (hW : c.findEntryDevice st.devices identifiers = some W) (hne : W.id ≠ Z.id) :
    c.Rivalled base Z.id Z.identifiers identifiers ∨ c.Contested base Z.id identifiers := by
  obtain ⟨hWst,hWns,hmeet⟩ := mem_of_findEntryDevice hW
  obtain ⟨Y,hY,horigin⟩ := hp.origin W hWst
  by_cases hfixed : c.Fixed Y
  · have hWY : W = Y := by
      rcases horigin with h | ⟨hren,h⟩
      · exact h
      · rw [h,hfixed.1 hren]
    subst hWY
    refine Or.inl ⟨W,hY,hne,hWns,hfixed,hmeet,or_iff_not_imp_left.mpr (fun hZmeet => ?_)⟩
    refine (Precedes.map Device.id (precedes_of_find hW hZ (by simp [hns,hZmeet]) ?_)).of_sublist hp.order
    rintro rfl
    exact hne rfl
  · rcases horigin with rfl | ⟨hren,rfl⟩
    · refine Or.inr ⟨W,hY,hne,hWns,hfixed,fun hdis => hmeet ?_⟩
      exact (Finset.disjoint_union_left.mp hdis).1
    · refine Or.inr ⟨Y,hY,hne,hWns,hfixed,fun hdis => hmeet ?_⟩
      exact (Finset.disjoint_union_left.mp hdis).2

/-- The loop over devices: what it leaves, and the turn of each of them. -/
structure DeviceLoop (c : Setup) (base st : Registries c.perEntry) (listed : List Device)
    (t : Registries c.perEntry) : Prop where
  progress : Progress c base t
  entities : t.entities = st.entities
  others : ∀ Z, Z.id ∉ listed.map Device.id → (Z ∈ t.devices.devices ↔ Z ∈ st.devices.devices)
  turns : ∀ X ∈ listed, ∃ s u, Progress c base s ∧ s.entities = st.entities ∧ X ∈ s.devices.devices ∧
    c.renameDevice s X = .ok u ∧ ∀ Z, Z.id = X.id → (Z ∈ t.devices.devices ↔ Z ∈ u.devices.devices)

theorem deviceLoop (hactive : ¬ c.Inactive) {listed : List Device} (hn : (listed.map Device.id).Nodup)
    (hp : Progress c base st)
    (hlisted : ∀ X ∈ listed, X ∈ base.devices.devices ∧ X ∈ st.devices.devices ∧ c.ofEntry X = true)
    (h : c.renameDevices st listed = .ok t) : DeviceLoop c base st listed t := by
  induction listed generalizing st with
  | nil =>
    obtain rfl : st = t := Except.ok.inj h
    exact ⟨hp,rfl,fun _ _ => Iff.rfl,fun _ hX => by cases hX⟩
  | cons X rest ih =>
    rw [renameDevices] at h
    obtain ⟨hnot,hrn⟩ := List.nodup_cons.mp hn
    obtain ⟨hbase,hX,hof⟩ := hlisted X (by simp)
    split at h
    · cases h
    · rename_i u hu
      obtain ⟨hpu,hentities,hothers⟩ := hp.turn hactive hof hbase hX hu
      have hrest : ∀ Y ∈ rest, Y ∈ base.devices.devices ∧ Y ∈ u.devices.devices ∧ c.ofEntry Y = true := by
        intro Y hY
        obtain ⟨hYbase,hYst,hYof⟩ := hlisted Y (by simp [hY])
        exact ⟨hYbase,(hothers Y (fun hid => hnot (hid ▸ List.mem_map_of_mem hY))).mpr hYst,hYof⟩
      have hloop := ih hrn hpu hrest h
      refine ⟨hloop.progress,hloop.entities.trans hentities,fun Z hZ => ?_,fun Y hY => ?_⟩
      · simp only [List.map_cons,List.mem_cons,not_or] at hZ
        exact (hloop.others Z hZ.2).trans (hothers Z hZ.1)
      · rcases List.mem_cons.mp hY with rfl | hmem
        · exact ⟨st,u,hp,rfl,hX,hu,fun Z hid => hloop.others Z (hid ▸ hnot)⟩
        · obtain ⟨s,v,hps,hse,hYs,hv,hown⟩ := hloop.turns Y hmem
          exact ⟨s,v,hps,hse.trans hentities,hYs,hv,hown⟩

end Devices

section Legacy
variable {c} {base v t : Registries c.perEntry} {X Z : Device}

theorem legacyDeviceIdentifier_ne : c.legacyDeviceIdentifier ≠ (domain,c.identity) := by
  intro h
  have hlength := congrArg String.length (congrArg Prod.snd h)
  have hone : "_".length = 1 := by decide
  simp only [legacyDeviceIdentifier,String.length_append] at hlength
  omega

theorem sameNamespace_of_inNamespace {X Y : Device} (hX : c.inNamespace X = true)
    (hY : c.inNamespace Y = true) : SameNamespace c.perEntry X Y := by
  unfold inNamespace at hX hY
  by_cases hper : c.perEntry = true
  · simp only [hper,Bool.not_true,Bool.false_or,ofEntry,decide_eq_true_eq] at hX hY
    exact Or.inr ⟨c.entryId,hX,hY⟩
  · exact Or.inl (by simpa using hper)

theorem legacyDevice_cases (h : c.migrateLegacyDeviceIdentifier v = .ok t) :
    (t = v ∧ ∀ Z ∈ v.devices.devices, c.inNamespace Z = true → c.legacyDeviceIdentifier ∉ Z.identifiers) ∨
    ∃ X ∈ v.devices.devices, c.inNamespace X = true ∧ c.legacyDeviceIdentifier ∈ X.identifiers ∧
      c.DeviceTurn v X c.systemIdentifiers t ∧
      ∀ Z ∈ v.devices.devices, c.inNamespace Z = true → c.legacyDeviceIdentifier ∈ Z.identifiers → Z = X := by
  unfold migrateLegacyDeviceIdentifier at h
  split at h
  · rename_i hfind
    refine Or.inl ⟨(Except.ok.inj h).symm,fun Z hZ hns hlegacy => ?_⟩
    have hmatch := List.find?_eq_none.mp hfind Z hZ
    simp [hns,hlegacy] at hmatch
  · rename_i X hfind
    obtain ⟨hX,hns,hmeet⟩ := mem_of_findEntryDevice hfind
    have hlegacy : c.legacyDeviceIdentifier ∈ X.identifiers := by
      rwa [Finset.disjoint_singleton_right,not_not] at hmeet
    refine Or.inr ⟨X,hX,hns,hlegacy,deviceTurn h,fun Z hZ hZns hZlegacy => ?_⟩
    by_contra hne
    have hdis := v.devices.apart Z hZ X hX (sameNamespace_of_inNamespace hZns hns) (fun hid =>
      hne (eq_of_device hZ hX hid))
    exact Finset.disjoint_left.mp hdis hZlegacy hlegacy

theorem legacyDevice_entities (h : c.migrateLegacyDeviceIdentifier v = .ok t) : t.entities = v.entities := by
  rcases legacyDevice_cases h with ⟨rfl,_⟩ | ⟨X,_,_,_,hturn,_⟩
  · rfl
  · exact hturn.frame.1

theorem legacyDevice_follows (hf : Follows c base v) (h : c.migrateLegacyDeviceIdentifier v = .ok t) : Follows c base t := by
  rcases legacyDevice_cases h with ⟨rfl,_⟩ | ⟨X,hX,_,hlegacy,hturn,_⟩
  · exact hf
  · exact hf.turn hX (fun hfixed => hfixed.2 hlegacy) hturn

/-- The identifier that the migration of the system device looks for is gone after it, or its device is left. -/
theorem quiet_legacyDevice (h : c.migrateLegacyDeviceIdentifier v = .ok t) :
    c.migrateLegacyDeviceIdentifier t = .ok t := by
  rcases legacyDevice_cases h with ⟨rfl,_⟩ | ⟨X,hX,hns,hlegacy,hturn,honly⟩
  · exact h
  by_cases hleft : t = v
  · subst hleft
    exact h
  have hnone : c.findEntryDevice t.devices {c.legacyDeviceIdentifier} = none := by
    rw [Option.eq_none_iff_forall_ne_some]
    intro Z hfind
    obtain ⟨hZ,hZns,hmeet⟩ := mem_of_findEntryDevice hfind
    rw [Finset.disjoint_singleton_right,not_not] at hmeet
    by_cases hid : Z.id = X.id
    · rcases hturn.own hX hZ hid with ⟨_,ht,_⟩ | ⟨rfl,_⟩
      · exact hleft ht
      · exact legacyDeviceIdentifier_ne (Finset.mem_singleton.mp hmeet)
    · obtain rfl := honly Z ((hturn.frame.2 Z hid).mp hZ) hZns hmeet
      exact hid rfl
  unfold migrateLegacyDeviceIdentifier
  rw [hnone]

end Legacy

section Settling
variable {c} {base st t u v : Registries c.perEntry} {X Z : Device}

theorem ends_of_turn (hs : c.Settled base) (hp : Progress c base st) (hactive : ¬ c.Inactive) (hof : c.ofEntry X = true)
    (hoccupied : c.entriesForDevice st.entities X.id ≠ [] → c.OccupiedFirst base.entities X.id)
    (hbase : X ∈ base.devices.devices) (hX : X ∈ st.devices.devices) (h : c.renameDevice st X = .ok t)
    (hZ : Z ∈ t.devices.devices) (hid : Z.id = X.id) (hren : c.Renames Z) : c.Ends base Z.id Z.identifiers := by
  rcases renameDevice_cases hactive hof h with ⟨rfl,hsame⟩ | ⟨hXr,hold,hturn⟩
  · obtain rfl := eq_of_device hZ hX hid
    have hends := hs.renamed Z hbase hren (Or.inl (hsame hren))
    rwa [hsame hren] at hends
  · rcases hturn.own hX hZ hid with ⟨rfl,_,hocc,Y,hfind,hne⟩ | ⟨rfl,hfree⟩
    · exact hs.duplicates Z hbase hren hold (rivals_of_find hp hX hXr.inNamespace hfind hne) (hoccupied hocc)
    · refine hs.renamed X hbase hXr (Or.inr (fun hrival => ?_))
      obtain ⟨Y,hfind,hne⟩ := hrival.find hp.toFollows hX
      exact hne (hfree Y hfind)

theorem rests_of_legacyDevice (hp : Progress c base v)
    (hends : ∀ Z ∈ v.devices.devices, c.Renames Z → c.Ends base Z.id Z.identifiers)
    (hoccupied : ∀ id, c.entriesForDevice v.entities id ≠ [] → c.Occupied base.entities id)
    (h : c.migrateLegacyDeviceIdentifier v = .ok t) :
    ∀ Z ∈ t.devices.devices, c.Renames Z → c.Rests base Z.id Z.identifiers := by
  intro Z hZ hren
  rcases legacyDevice_cases h with ⟨rfl,hnone⟩ | ⟨X,hX,_,hlegacy,hturn,honly⟩
  · exact (hends Z hZ hren).plain (hnone Z hZ hren.inNamespace)
  by_cases hid : Z.id = X.id
  · rcases hturn.own hX hZ hid with ⟨rfl,_,hocc,Y,hfind,hne⟩ | ⟨rfl,hfree⟩
    · exact (hends Z hX hren).duplicate hlegacy (rivals_of_find hp hX hren.inNamespace hfind hne) (hoccupied Z.id hocc)
    · refine (hends X hX hren).system hlegacy (fun hrival => ?_)
      obtain ⟨Y,hfind,hne⟩ := hrival.find hp.toFollows hX
      exact hne (hfree Y hfind)
  · have hZv := (hturn.frame.2 Z hid).mp hZ
    refine (hends Z hZv hren).plain (fun hZlegacy => hid ?_)
    rw [honly Z hZv hren.inNamespace hZlegacy]

theorem quiet_renameDevice (hf : Follows c base t) (hoccupied : ∀ id, c.Occupied base.entities id →
    c.entriesForDevice t.entities id ≠ []) (hactive : ¬ c.Inactive) (hX : X ∈ t.devices.devices) (hof : c.ofEntry X = true)
    (h : c.Renames X → c.Rests base X.id X.identifiers) : c.renameDevice t X = .ok t := by
  unfold renameDevice
  split
  · rfl
  · rename_i hshared
    rcases h ⟨hactive,hof,by simpa using hshared⟩ with hsame | ⟨hrival,hocc⟩
    · exact if_pos hsame
    · obtain ⟨Y,hfind,hne⟩ := hrival.find hf hX
      split
      · rfl
      · unfold renameDeviceIdentifiers
        rw [hfind]
        simp only [if_neg hne,if_pos (hoccupied X.id hocc)]

theorem quiet_renameDevices {listed : List Device} (h : ∀ X ∈ listed, c.renameDevice st X = .ok st) :
    c.renameDevices st listed = .ok st := by
  induction listed with
  | nil => rfl
  | cons X rest ih =>
    rw [renameDevices,h X (by simp)]
    exact ih (fun Y hY => h Y (by simp [hY]))

end Settling

section Runs
variable {c} {st t u v : Registries c.perEntry}

theorem namespace_ok (h : c.migrateEntryIdentityNamespace st = .ok u) : ∃ r,
    renameUniqueIds c.namespaceRename st.entities (entriesForConfigEntry st.entities c.entryId) = .ok r ∧
    (c.Inactive → u = { st with entities := r }) ∧
    (¬ c.Inactive → c.renameDevices { st with entities := r } (st.devices.devices.filter c.ofEntry) = .ok u) := by
  unfold migrateEntryIdentityNamespace at h
  rw [migrateEntryIdentityNamespace_eq] at h
  cases hloop : renameUniqueIds c.namespaceRename st.entities (entriesForConfigEntry st.entities c.entryId) with
  | error r =>
    rw [hloop] at h
    cases h
  | ok r =>
    rw [hloop] at h
    change (if c.Inactive then Except.ok { st with entities := r } else _) = _ at h
    refine ⟨r,rfl,fun hinactive => ?_,fun hactive => ?_⟩
    · rw [if_pos hinactive] at h
      exact (Except.ok.inj h).symm
    · rwa [if_neg hactive] at h

theorem uniqueIds_ok (h : c.migrateUniqueIds u = .ok v) : ∃ r,
    renameUniqueIds c.formatRename u.entities (entriesForConfigEntry u.entities c.entryId) = .ok r ∧
      v = { u with entities := r } := by
  unfold migrateUniqueIds at h
  change c.onEntities u (renameUniqueIds c.formatRename u.entities
    (entriesForConfigEntry u.entities c.entryId)) = .ok v at h
  cases hloop : renameUniqueIds c.formatRename u.entities (entriesForConfigEntry u.entities c.entryId) with
  | error r =>
    rw [hloop] at h
    cases h
  | ok r =>
    rw [hloop] at h
    exact ⟨r,rfl,(Except.ok.inj h).symm⟩

theorem migrate_ok (h : c.migrate st = .ok t) : ∃ u v, c.migrateEntryIdentityNamespace st = .ok u ∧
    c.migrateUniqueIds u = .ok v ∧
    c.migrateLegacyDeviceIdentifier v = .ok t := by
  unfold migrate at h
  cases hu : c.migrateEntryIdentityNamespace st with
  | error e =>
    rw [hu] at h
    cases h
  | ok u =>
    rw [hu] at h
    change (c.migrateUniqueIds u >>= c.migrateLegacyDeviceIdentifier) = .ok t at h
    cases hv : c.migrateUniqueIds u with
    | error e =>
      rw [hv] at h
      cases h
    | ok v =>
      rw [hv] at h
      exact ⟨u,v,rfl,hv,h⟩

theorem quiet_namespace
    (hentities : ∀ e ∈ entriesForConfigEntry t.entities c.entryId, c.namespaceRename e.uniqueId = none)
    (hdevices : ¬ c.Inactive → ∀ X ∈ t.devices.devices, c.ofEntry X = true → c.renameDevice t X = .ok t) :
    c.migrateEntryIdentityNamespace t = .ok t := by
  unfold migrateEntryIdentityNamespace
  rw [migrateEntryIdentityNamespace_eq,quiet_renameUniqueIds hentities]
  change (if c.Inactive then Except.ok t else c.renameDevices t (t.devices.devices.filter c.ofEntry)) = .ok t
  split
  · rfl
  · rename_i hactive
    refine quiet_renameDevices (fun X hX => ?_)
    obtain ⟨hX,hof⟩ := List.mem_filter.mp hX
    exact hdevices hactive X hX hof

theorem quiet_uniqueIds
    (hentities : ∀ e ∈ entriesForConfigEntry t.entities c.entryId, c.formatRename e.uniqueId = none) :
    c.migrateUniqueIds t = .ok t := by
  unfold migrateUniqueIds
  change c.onEntities t (renameUniqueIds c.formatRename t.entities (entriesForConfigEntry t.entities c.entryId)) = .ok t
  rw [quiet_renameUniqueIds hentities]
  rfl

theorem nodup_ofEntry (st : Registries c.perEntry) : ((st.devices.devices.filter c.ofEntry).map Device.id).Nodup :=
  (List.filter_sublist.map _).nodup st.devices.ids

theorem listed_ofEntry {r : Registry} (X : Device) (hX : X ∈ st.devices.devices.filter c.ofEntry) :
    X ∈ st.devices.devices ∧ X ∈ ({ st with entities := r } : Registries c.perEntry).devices.devices ∧
      c.ofEntry X = true :=
  ⟨(List.mem_filter.mp hX).1,List.mem_filter.mp hX⟩

theorem namespace_spec (h : c.migrateEntryIdentityNamespace st = .ok u) :
    u.entities.entries = displace c.namespaceRename c.entryId st.entities.entries ∧ Progress c st u ∧
    (¬ c.Inactive → ∃ r : Registry, r.entries = displace c.namespaceRename c.entryId st.entities.entries ∧
      DeviceLoop c st { st with entities := r } (st.devices.devices.filter c.ofEntry) u) := by
  obtain ⟨r,hloop,hinactive,hactive⟩ := namespace_ok h
  have hr := entries_of_loop hloop
  by_cases hc : c.Inactive
  · rw [hinactive hc]
    exact ⟨hr,Progress.refl st r,fun hnot => absurd hc hnot⟩
  · have hdevices := deviceLoop hc (nodup_ofEntry st) (Progress.refl st r) listed_ofEntry (hactive hc)
    refine ⟨?_,hdevices.progress,fun _ => ⟨r,hr,hdevices⟩⟩
    rw [hdevices.entities]
    exact hr

theorem migrate_entities (hu : c.migrateEntryIdentityNamespace st = .ok u) (hv : c.migrateUniqueIds u = .ok v) :
    v.entities.entries =
      displace c.formatRename c.entryId (displace c.namespaceRename c.entryId st.entities.entries) ∧
    v.devices = u.devices := by
  obtain ⟨r,hloop,rfl⟩ := uniqueIds_ok hv
  refine ⟨?_,rfl⟩
  rw [← (namespace_spec hu).1]
  exact entries_of_loop hloop

theorem Progress.of_devices (h : Progress c st u) (hd : v.devices = u.devices) : Progress c st v := by
  refine ⟨⟨?_,fun Y hY hfixed => ?_⟩,fun Z hZ => ?_⟩
  · rw [hd]
    exact h.order
  · rw [hd]
    exact h.fixed Y hY hfixed
  · exact h.origin Z (hd ▸ hZ)

/-- Once the migrations have run through on settled registries, none of them changes anything again. -/
theorem quiet_of_settled (hs : c.Settled st) (h : c.migrate st = .ok t) : c.Quiet t := by
  obtain ⟨u,v,hu,hv,ht⟩ := migrate_ok h
  obtain ⟨hentries,hprogress,hloop⟩ := namespace_spec hu
  obtain ⟨hfinal,hdevices⟩ := migrate_entities hu hv
  have hentities := legacyDevice_entities ht
  have hoccupied : ∀ id, c.entriesForDevice v.entities id ≠ [] ↔ c.Occupied st.entities id := fun _ => occupied_iff hfinal
  have hends : ∀ Z ∈ v.devices.devices, c.Renames Z → c.Ends st Z.id Z.identifiers := by
    intro Z hZ hren
    rw [hdevices] at hZ
    obtain ⟨r,hr,hdev⟩ := hloop hren.1
    obtain ⟨X,hX,horigin⟩ := hprogress.origin Z hZ
    have hsame : Z.id = X.id ∧ Z.entries = X.entries := by rcases horigin with rfl | ⟨_,rfl⟩ <;> exact ⟨rfl,rfl⟩
    have hof : c.ofEntry X = true := by
      have hZof := hren.2.1
      rwa [ofEntry,hsame.2] at hZof
    obtain ⟨s,w,hps,hse,hXs,hw,hown⟩ := hdev.turns X (List.mem_filter.mpr ⟨hX,hof⟩)
    refine ends_of_turn hs hps hren.1 hof (fun hocc => ?_) hX hXs hw ((hown Z hsame.1).mp hZ) hsame.1 hren
    rw [hse] at hocc
    exact (occupiedFirst_iff hr).mp hocc
  have hpv : Progress c st v := hprogress.of_devices hdevices
  have hrests := rests_of_legacyDevice hpv hends (fun id => (hoccupied id).mp) ht
  have hstill : ∀ e ∈ entriesForConfigEntry t.entities c.entryId, c.Still e.uniqueId := by
    intro x hx
    obtain ⟨hx,hof⟩ := mem_entriesForConfigEntry.mp hx
    rw [hentities,hfinal] at hx
    obtain ⟨e,he,hstays,⟨heof,rfl⟩ | ⟨hnot,rfl⟩⟩ := mem_final.mp hx
    · rw [finalId_eq]
      exact hs.entities e he heof hstays
    · exact absurd (hnot.symm.trans hof) (by simp)
  refine ⟨quiet_namespace (fun e he => (hstill e he).1) (fun hactive X hX hof => ?_),
    quiet_uniqueIds (fun e he => (hstill e he).2),quiet_legacyDevice ht⟩
  refine quiet_renameDevice (legacyDevice_follows hpv.toFollows ht) (fun id hocc => ?_) hactive hX hof (hrests X hX)
  rw [hentities]
  exact (hoccupied id).mpr hocc

end Runs
end Setup
end TruenasCE.Identity
