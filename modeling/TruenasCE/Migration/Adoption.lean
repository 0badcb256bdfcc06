import TruenasCE.Library.Raising
import TruenasCE.Migration.Registry

/-! # Adoption of the legacy entities

`async_adopt_legacy_entities` and `finalize_legacy_adoption` on the registry. A call of
the registry that raises ends the run; the registry it leaves is the error.
-/
namespace TruenasCE.Migration

def domain : String := "truenas_ce"

def legacyDomain : String := "truenas"

/-- A persisted record of a freed legacy entity. -/
structure Record where
  uniqueId : String
  entityDomain : String
  entityId : EntityId
  name : Option String
  icon : Option String
  areaId : Option String
  disabledUser : Bool
  targetUniqueId : Option String := none
  deriving DecidableEq, Repr

/-- `_target_unique_id` -/
def Record.target (r : Record) : String :=
  match r.targetUniqueId with
  | none => r.uniqueId
  | some target => if target = "" then r.uniqueId else target

def Record.targetKey (r : Record) : Key := ⟨r.entityDomain,domain,r.target⟩

def Record.legacyKey (r : Record) : Key := ⟨r.entityDomain,legacyDomain,r.uniqueId⟩

/-- The updates of `_restore_overrides`. -/
def Record.updates (r : Record) : Updates where
  name := r.name
  icon := r.icon
  areaId := r.areaId
  disabledBy := if r.disabledUser then some .user else none

def RegistryEntry.OfEntry (entryId : String) (e : RegistryEntry) : Bool := e.configEntryId = some entryId

/-- Home Assistant marks the enabled entities of a disabled config entry. -/
def RegistryEntry.disableWith (entryId : String) (e : RegistryEntry) : RegistryEntry :=
  if e.OfEntry entryId then { e with disabledBy := e.disabledBy.or (some .configEntry) } else e

theorem RegistryEntry.disableWith_entityId (entryId : String) (e : RegistryEntry) :
    (e.disableWith entryId).entityId = e.entityId := by
  unfold RegistryEntry.disableWith
  split <;> rfl

theorem RegistryEntry.disableWith_key (entryId : String) (e : RegistryEntry) : (e.disableWith entryId).key = e.key := by
  unfold RegistryEntry.disableWith
  split <;> rfl

/-- `async_set_disabled_by` of a config entry, on its entities. -/
def Registry.disableEntry (reg : Registry) (entryId : String) : Registry where
  entries := reg.entries.map (RegistryEntry.disableWith entryId)
  ids := by
    simpa only [List.map_map,Function.comp_def,RegistryEntry.disableWith_entityId] using reg.ids
  keys := by
    simpa only [List.map_map,Function.comp_def,RegistryEntry.disableWith_key] using reg.keys

def recordOf (e : RegistryEntry) : Record where
  uniqueId := e.uniqueId
  entityDomain := e.entityId.domain
  entityId := e.entityId
  name := e.name
  icon := e.icon
  areaId := e.areaId
  disabledUser := e.disabledBy = some .user

def collectLegacyRecords (reg : Registry) (legacyEntryId : String) : List Record :=
  (reg.entries.filter (RegistryEntry.OfEntry legacyEntryId)).map recordOf

def stripPrefix (pre s : String) : Option String :=
  if pre.toList <+: s.toList then some (String.ofList (s.toList.drop pre.toList.length)) else none

@[simp] theorem stripPrefix_append (pre t : String) : stripPrefix pre (pre ++ t) = some t := by
  simp [stripPrefix]

theorem eq_of_stripPrefix {pre s t : String} (h : stripPrefix pre s = some t) : s = pre ++ t := by
  unfold stripPrefix at h
  split at h
  · rename_i hpre
    obtain ⟨rest,hrest⟩ := hpre
    have ht : t = String.ofList rest := by
      rw [← Option.some.inj h,← hrest]
      simp
    apply String.toList_injective
    rw [ht,← hrest]
    simp
  · cases h

section Targets
variable (lower : String → String) (legacyName identity : String) (renames : String → Option String)

def currentUniqueId (legacyUniqueId : String) : String :=
  if legacyName = "" then legacyUniqueId
  else
    match stripPrefix (lower legacyName ++ "-") legacyUniqueId with
    | none => legacyUniqueId
    | some reference =>
      let swapped := lower identity ++ "-" ++ reference
      (renames swapped).getD swapped

def addTargetUniqueIds (records : List Record) : List Record :=
  records.map (fun r =>
    { r with targetUniqueId := some (currentUniqueId lower legacyName identity renames r.uniqueId) })

end Targets

def removeLegacyEntities (reg : Registry) (records : List Record) : Registry :=
  reg.removeWhere (fun e => decide (e.entityId ∈ records.map Record.entityId))

/-- What the adoption reads besides the registry; `lower` is the lowering of strings. -/
structure Setup where
  lower : String → String
  entryId : String
  identity : String
  legacyEntryId : String
  legacyName : String
  renames : String → Option String

/-- The records `async_adopt_legacy_entities` persists and returns. -/
def Setup.records (c : Setup) (reg : Registry) : List Record :=
  addTargetUniqueIds c.lower c.legacyName c.identity c.renames
    (collectLegacyRecords (reg.disableEntry c.legacyEntryId) c.legacyEntryId)

/-- The registry `async_adopt_legacy_entities` leaves. -/
def Setup.adopt (c : Setup) (reg : Registry) : Registry :=
  removeLegacyEntities (reg.disableEntry c.legacyEntryId) (c.records reg)

/-- `(current_entity_id, target_entity_id, record)` -/
structure Move where
  current : EntityId
  target : EntityId
  record : Record
  deriving DecidableEq, Repr

def tempObjectPrefix : String := "truenas_ce_mig_"

def tempId (domain : String) (n : ℕ) : EntityId := ⟨domain,tempObjectPrefix ++ toString n⟩

def EntityId.Temporary (id : EntityId) : Prop := ∃ n, id = tempId id.domain n

/-- The loop of `_temp_entity_id`; among as many candidates as the registry has entries, and
one more, one is free. -/
def tempEntityIdFrom (reg : Registry) (domain : String) : ℕ → ℕ → EntityId × ℕ
  | 0, counter => (tempId domain counter,counter + 1)
  | tries + 1, counter =>
    if (reg.get (tempId domain counter)).isNone then (tempId domain counter,counter + 1)
    else tempEntityIdFrom reg domain tries (counter + 1)

def tempEntityId (reg : Registry) (like : EntityId) (start : ℕ) : EntityId × ℕ :=
  tempEntityIdFrom reg like.domain reg.entries.length start

def raising (reg : Registry) : Option Registry → Except Registry Registry
  | some r => .ok r
  | none => .error reg

/-- The first pass of `_remap_and_restore`. -/
def park : Registry → ℕ → List Move → Except Registry (Registry × List Move)
  | reg, _, [] => .ok (reg,[])
  | reg, counter, m :: rest =>
    if m.current = m.target then (park reg counter rest).map (fun p => (p.1,m :: p.2))
    else
      match reg.rename m.current (tempEntityId reg m.current counter).1 with
      | none => .error reg
      | some r => (park r (tempEntityId reg m.current counter).2 rest).map
          (fun p => (p.1,{ m with current := (tempEntityId reg m.current counter).1 } :: p.2))

def restoreOverrides (reg : Registry) (id : EntityId) (record : Record) : Except Registry Registry :=
  if record.updates = {} then .ok reg else raising reg (reg.update id record.updates)

/-- What the second pass did with a record; `occupied` is the logged warning. -/
inductive Outcome
  | restored (record : Record)
  | occupied (record : Record) (leftAs : EntityId)
  deriving DecidableEq, Repr

def settleOne (reg : Registry) (m : Move) : Except Registry (Registry × Outcome) :=
  if m.current = m.target then (restoreOverrides reg m.current m.record).map (fun r => (r,.restored m.record))
  else if (reg.get m.target).isNone then
    match reg.rename m.current m.target with
    | none => .error reg
    | some r => (restoreOverrides r m.target m.record).map (fun r => (r,.restored m.record))
  else (restoreOverrides reg m.current m.record).map (fun r => (r,.occupied m.record m.current))

/-- The second pass of `_remap_and_restore`. -/
def settle : Registry → List Move → Except Registry (Registry × List Outcome)
  | reg, [] => .ok (reg,[])
  | reg, m :: rest =>
    match settleOne reg m with
    | .error r => .error r
    | .ok (r,outcome) => (settle r rest).map (fun p => (p.1,outcome :: p.2))

def remapAndRestore (reg : Registry) (pairs : List Move) : Except Registry (Registry × List Outcome) :=
  match park reg 0 pairs with
  | .error r => .error r
  | .ok (r,parked) => settle r parked

/-- The pairs of the registered entities of `records`, looked up by `key`. -/
def pairsOf (reg : Registry) (key : Record → Key) (records : List Record) : List Move :=
  records.filterMap (fun r => (reg.getEntityId (key r)).map (fun id => ⟨id,r.entityId,r⟩))

def finalizeLegacyAdoption (reg : Registry) (records : List Record) : Except Registry (Registry × List Outcome) :=
  remapAndRestore reg (pairsOf reg Record.targetKey records)

def Setup.recordFor (c : Setup) (e : RegistryEntry) : Record :=
  { recordOf e with targetUniqueId := some (currentUniqueId c.lower c.legacyName c.identity c.renames e.uniqueId) }

structure Distinct (records : List Record) : Prop where
  legacyKeys : (records.map Record.legacyKey).Nodup
  entityIds : (records.map Record.entityId).Nodup
  domain : ∀ r ∈ records, r.entityId.domain = r.entityDomain

section Records
variable {c : Setup} {reg : Registry}

theorem recordOf_disableWith (entryId : String) (e : RegistryEntry) :
    recordOf (e.disableWith entryId) = recordOf e := by
  unfold RegistryEntry.disableWith
  split
  · rcases e with ⟨_,_,_,_,_,_,_,_ | _⟩ <;> simp [recordOf]
  · rfl

theorem ofEntry_disableWith (entryId : String) (e : RegistryEntry) :
    (e.disableWith entryId).OfEntry entryId = e.OfEntry entryId := by
  unfold RegistryEntry.disableWith
  split <;> rfl

theorem Setup.records_eq :
    c.records reg = (reg.entries.filter (RegistryEntry.OfEntry c.legacyEntryId)).map c.recordFor := by
  simp only [Setup.records,addTargetUniqueIds,collectLegacyRecords,Registry.disableEntry,List.filter_map,List.map_map]
  simp only [Function.comp_def,recordOf_disableWith,ofEntry_disableWith]
  rfl

/-- Home Assistant registers the entities of a config entry under its integration. -/
def LegacyPlatform (legacyEntryId : String) (reg : Registry) : Prop :=
  ∀ e ∈ reg.entries, e.OfEntry legacyEntryId = true → e.platform = legacyDomain

theorem legacyKey_recordFor {e : RegistryEntry} (h : e.platform = legacyDomain) :
    (c.recordFor e).legacyKey = e.key := by
  simp [Setup.recordFor,recordOf,Record.legacyKey,RegistryEntry.key,h]

theorem Setup.mem_records {r : Record} : r ∈ c.records reg ↔
    ∃ e ∈ reg.entries, e.OfEntry c.legacyEntryId = true ∧ c.recordFor e = r := by
  rw [Setup.records_eq]
  simp only [List.mem_map,List.mem_filter,and_assoc]

theorem Setup.nodup_records {β : Type*} {f : Record → β} {g : RegistryEntry → β} (hg : (reg.entries.map g).Nodup)
    (hf : ∀ e ∈ reg.entries, e.OfEntry c.legacyEntryId = true → f (c.recordFor e) = g e) :
      ((c.records reg).map f).Nodup := by
  have hmap : (c.records reg).map f = (reg.entries.filter (RegistryEntry.OfEntry c.legacyEntryId)).map g := by
    rw [Setup.records_eq,List.map_map]
    refine List.map_congr_left (fun e he => ?_)
    obtain ⟨hmem,hof⟩ := List.mem_filter.mp he
    exact hf e hmem hof
  rw [hmap]
  exact (List.filter_sublist.map g).nodup hg

theorem Setup.nodup_entityIds : ((c.records reg).map Record.entityId).Nodup := nodup_records reg.ids (fun _ _ _ => rfl)

theorem Setup.domain_records {r : Record} (hr : r ∈ c.records reg) : r.entityId.domain = r.entityDomain := by
  obtain ⟨e,_,_,rfl⟩ := Setup.mem_records.mp hr
  rfl

theorem Setup.records_distinct (h : LegacyPlatform c.legacyEntryId reg) : Distinct (c.records reg) where
  legacyKeys := nodup_records reg.keys (fun e he hof => legacyKey_recordFor (h e he hof))
  entityIds := nodup_entityIds
  domain _ hr := domain_records hr

end Records
end TruenasCE.Migration
