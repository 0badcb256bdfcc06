import TruenasCE.ApiParser.Fields
import TruenasCE.Identity.UniqueIds

/-! # The display units of data sizes

At each start the unit of every data size is written into the registry: on the scale of the entry by the magnitude of the
value, or back to the unit of the description where an earlier release forced another one.
-/
namespace TruenasCE.Units
open Library
open Identity (Text)
open ApiParser (Fields Value dictGet)

structure Tier where
  threshold : ℕ
  unit : String
  precision : Option ℕ
  deriving DecidableEq, Repr

def binaryTiers : List Tier :=
  [⟨1024 ^ 5,"PiB",some 2⟩,⟨1024 ^ 4,"TiB",some 2⟩,⟨1024 ^ 3,"GiB",none⟩,⟨0,"MiB",none⟩]

def decimalTiers : List Tier :=
  [⟨1000 ^ 5,"PB",some 2⟩,⟨1000 ^ 4,"TB",some 2⟩,⟨1000 ^ 3,"GB",none⟩,⟨0,"MB",none⟩]

def tiers (binary : Bool) : List Tier := if binary then binaryTiers else decimalTiers

/-- `tiers[_BASE_TIER_INDEX][1]` -/
def baseUnit (binary : Bool) : String := if binary then "GiB" else "GB"

def positive : Value → Bool
  | .bool b => b
  | .int i => 0 < i
  | .float (.finite q) => 0 < q
  | .float (.infinite negative) => !negative
  | _ => false

def reaches (threshold : ℕ) : Value → Bool
  | .bool b => threshold ≤ b.toNat
  | .int i => (threshold : ℤ) ≤ i
  | .float (.finite q) => (threshold : ℚ) ≤ q
  | .float (.infinite negative) => !negative
  | _ => false

def scaledDataUnit (value : Value) (binary : Bool) : String × Option ℕ :=
  if positive value then
    match (tiers binary).find? (fun tier => reaches tier.threshold value) with
    | some tier => (tier.unit,tier.precision)
    | none => (baseUnit binary,none)
  else (baseUnit binary,none)

theorem reaches_zero {value : Value} (h : positive value = true) : reaches 0 value = true := by
  cases value with
  | int i =>
    have hpos : 0 < i := of_decide_eq_true h
    exact decide_eq_true (by omega)
  | float f =>
    cases f with
    | finite q =>
      have hpos : 0 < q := by simpa [positive] using h
      exact decide_eq_true (by simpa using Rat.le_of_lt hpos)
    | infinite negative => exact h
  | bool b => simp [reaches]
  | none | str | list | dict | datetime => exact h

theorem tiers_sorted (binary : Bool) : (tiers binary).Pairwise (fun a b => b.threshold < a.threshold) := by
  cases binary with
  | true => simp [tiers,binaryTiers]
  | false => simp [tiers,decimalTiers]

/-- A unit is that of the greatest tier that a positive number reaches, and the one of the base for anything else. -/
def Scaled (binary : Bool) (value : Value) (unit : String) : Prop :=
  if positive value = true then
    ∃ tier ∈ tiers binary, unit = tier.unit ∧ reaches tier.threshold value = true ∧
      ∀ tier' ∈ tiers binary, tier.threshold < tier'.threshold → reaches tier'.threshold value = false
  else unit = baseUnit binary

theorem scaled_scaledDataUnit (binary : Bool) (value : Value) : Scaled binary value (scaledDataUnit value binary).1 := by
  unfold Scaled scaledDataUnit
  by_cases h : positive value = true
  · rw [if_pos h,if_pos h]
    have hlast : ∃ tier ∈ tiers binary, reaches tier.threshold value = true := by
      cases binary with
      | true => exact ⟨⟨0,"MiB",none⟩,by simp [tiers,binaryTiers],reaches_zero h⟩
      | false => exact ⟨⟨0,"MB",none⟩,by simp [tiers,decimalTiers],reaches_zero h⟩
    obtain ⟨tier,hfind⟩ := Option.isSome_iff_exists.mp (List.find?_isSome.mpr hlast)
    obtain ⟨hreach,before,after,hsplit,hbefore⟩ := List.find?_eq_some_iff_append.mp hfind
    rw [hfind]
    refine ⟨tier,List.mem_of_find?_eq_some hfind,rfl,hreach,fun tier' hmem hlt => ?_⟩
    have hsorted := tiers_sorted binary
    rw [hsplit,List.pairwise_append,List.pairwise_cons] at hsorted
    rw [hsplit,List.mem_append,List.mem_cons] at hmem
    rcases hmem with hmem | rfl | hmem
    · simpa using hbefore tier' hmem
    · omega
    · have hle := hsorted.2.1.1 tier' hmem
      omega
  · rw [if_neg h,if_neg h]

theorem Scaled.unique {binary : Bool} {value : Value} {unit unit' : String} (h : Scaled binary value unit)
    (h' : Scaled binary value unit') : unit = unit' := by
  unfold Scaled at h h'
  split at h
  · rename_i hpositive
    rw [if_pos hpositive] at h'
    obtain ⟨tier,hmem,hunit,hreach,hmax⟩ := h
    obtain ⟨tier',hmem',hunit',hreach',hmax'⟩ := h'
    have hle : ¬tier.threshold < tier'.threshold := by
      intro hlt
      rw [hmax tier' hmem' hlt] at hreach'
      exact Bool.false_ne_true hreach'
    have hge : ¬tier'.threshold < tier.threshold := by
      intro hlt
      rw [hmax' tier hmem hlt] at hreach
      exact Bool.false_ne_true hreach
    have hnodup : ((tiers binary).map Tier.threshold).Nodup :=
      List.pairwise_map.mpr ((tiers_sorted binary).imp (fun hlt => Nat.ne_of_gt hlt))
    have hsame : tier = tier' := List.inj_on_of_nodup_map hnodup hmem hmem' (by omega)
    rw [hunit,hunit',hsame]
  · rename_i hpositive
    rw [if_neg hpositive] at h'
    rw [h,h']

theorem scaled_iff {binary : Bool} {value : Value} {unit : String} :
    Scaled binary value unit ↔ (scaledDataUnit value binary).1 = unit := by
  constructor
  · exact (scaled_scaledDataUnit binary value).unique
  · intro h
    rw [← h]
    exact scaled_scaledDataUnit binary value

def gbScaledUnits : List String := ["GB","GiB"]

/-- A description of a data size; `valueFn` reads the snapshot of the system. -/
structure SizeDescription (σ : Type*) where
  key : String
  suggestedUnit : Option String
  dataPath : String
  dataReference : Option String := none
  dataAttribute : String := ""
  valueFn : Option (σ → Value) := none

structure Source (σ : Type*) where
  ds : Fields
  systemData : σ

section References
variable {σ : Type*} (str : Value → String) (source : Source σ) (description : SizeDescription σ)

def descriptionReferences : List (Option String × Value) :=
  match source.ds.lookup description.dataPath with
  | some (.dict data) =>
    match description.dataReference with
    | none =>
      match description.valueFn with
      | some valueFn => [(none,valueFn source.systemData)]
      | none => [(none,dictGet data description.dataAttribute)]
    | some dataReference => data.filterMap (fun row =>
      match row.2 with
      | .dict vals =>
        let reference := match dictGet vals dataReference with
          | .none => row.1
          | reference => str reference
        some (some reference,dictGet vals description.dataAttribute)
      | _ => none)
  | _ => []

/-- An entity of the description with the value that it shows: one for each object among the rows, or one in all. -/
inductive Produces : Option String → Value → Prop
  | system {data : Fields} {valueFn : σ → Value} (hdata : source.ds.lookup description.dataPath = some (.dict data))
    (hkeyless : description.dataReference = none) (hvalue : description.valueFn = some valueFn) :
    Produces none (valueFn source.systemData)
  | keyless {data : Fields} (hdata : source.ds.lookup description.dataPath = some (.dict data))
    (hkeyless : description.dataReference = none) (hvalue : description.valueFn = none) :
    Produces none (dictGet data description.dataAttribute)
  | unnamed {data vals : Fields} {field uid : String} (hdata : source.ds.lookup description.dataPath = some (.dict data))
    (hkeyed : description.dataReference = some field) (hrow : (uid,.dict vals) ∈ data) (hname : dictGet vals field = .none) :
    Produces (some uid) (dictGet vals description.dataAttribute)
  | named {data vals : Fields} {field uid : String} (hdata : source.ds.lookup description.dataPath = some (.dict data))
    (hkeyed : description.dataReference = some field) (hrow : (uid,.dict vals) ∈ data) (hname : dictGet vals field ≠ .none) :
    Produces (some (str (dictGet vals field))) (dictGet vals description.dataAttribute)

theorem produces_of_mem {reference : Option String} {value : Value}
    (h : (reference,value) ∈ descriptionReferences str source description) :
    Produces str source description reference value := by
  unfold descriptionReferences at h
  split at h
  · rename_i data hdata
    split at h
    · rename_i hkeyless
      split at h
      · rename_i valueFn hvalue
        obtain ⟨rfl,rfl⟩ := Prod.mk.inj (List.mem_singleton.mp h)
        exact .system hdata hkeyless hvalue
      · rename_i hvalue
        obtain ⟨rfl,rfl⟩ := Prod.mk.inj (List.mem_singleton.mp h)
        exact .keyless hdata hkeyless hvalue
    · rename_i field hkeyed
      obtain ⟨⟨uid,row⟩,hrow,hpair⟩ := List.mem_filterMap.mp h
      cases row with
      | dict vals =>
        obtain ⟨hreference,rfl⟩ := Prod.mk.inj (Option.some.inj hpair)
        by_cases hname : dictGet vals field = .none
        · simp only [hname] at hreference
          rw [← hreference]
          exact .unnamed hdata hkeyed hrow hname
        · split at hreference
          · exact absurd ‹_› hname
          · rw [← hreference]
            exact .named hdata hkeyed hrow hname
      | none | bool | int | float | str | list | datetime => cases hpair
  · exact absurd h List.not_mem_nil

theorem mem_of_produces {reference : Option String} {value : Value}
    (h : Produces str source description reference value) :
    (reference,value) ∈ descriptionReferences str source description := by
  cases h with
  | system hdata hkeyless hvalue => simp [descriptionReferences,hdata,hkeyless,hvalue]
  | keyless hdata hkeyless hvalue => simp [descriptionReferences,hdata,hkeyless,hvalue]
  | unnamed hdata hkeyed hrow hname =>
    simp only [descriptionReferences,hdata,hkeyed]
    refine List.mem_filterMap.mpr ⟨_,hrow,?_⟩
    simp only [hname]
  | named hdata hkeyed hrow hname =>
    simp only [descriptionReferences,hdata,hkeyed]
    refine List.mem_filterMap.mpr ⟨_,hrow,?_⟩
    dsimp only
    split
    · exact absurd ‹_› hname
    · rfl

end References

structure SensorEntry where
  key : Migration.Key
  entityId : String
  options : Mapping String Fields

structure Registry where
  entries : List SensorEntry
  ids : (entries.map SensorEntry.entityId).Nodup
  keys : (entries.map SensorEntry.key).Nodup

namespace SensorEntry

/-- `entry.options.get("sensor", {})` -/
def sensorOptions (e : SensorEntry) : Fields := (e.options.lookup "sensor").getD []

def option (e : SensorEntry) (domain name : String) : Option Value :=
  (e.options.lookup domain).bind (fun options => options.lookup name)

/-- The entry behind `async_update_entity_options(entity_id, "sensor", options)`. -/
def withSensorOptions (e : SensorEntry) (options : Fields) : SensorEntry :=
  { e with options := Mapping.retain e.options (fun domain => domain ≠ "sensor") ++ [("sensor",options)] }

end SensorEntry

def unitOf (options : Fields) : Value := dictGet options "unit_of_measurement"

def isText (value : Value) (text : String) : Bool :=
  match value with
  | .str s => s = text
  | _ => false

/-- What `_force_entity_unit` writes, if it does. -/
def forcedOptions (unit : String) (options : Fields) : Option Fields :=
  if isText (unitOf options) unit then none else some (Mapping.set options "unit_of_measurement" (.str unit))

/-- What `_reset_entity_unit` writes, if it does. -/
def resetOptions (targetUnit : Option String) (options : Fields) : Option Fields :=
  match unitOf options with
  | .none => none
  | currentUnit =>
    if targetUnit.any (isText currentUnit) then none
    else some (Mapping.retain options (fun name => name ≠ "unit_of_measurement"))

/-- An entity whose options are rewritten, if there is something to write. -/
def SensorEntry.rewrite (change : Fields → Option Fields) (e : SensorEntry) : SensorEntry :=
  match change e.sensorOptions with
  | some options => e.withSensorOptions options
  | none => e

@[simp] theorem SensorEntry.key_rewrite (change : Fields → Option Fields) (e : SensorEntry) :
    (e.rewrite change).key = e.key := by
  unfold rewrite
  split <;> rfl

@[simp] theorem SensorEntry.entityId_rewrite (change : Fields → Option Fields) (e : SensorEntry) :
    (e.rewrite change).entityId = e.entityId := by
  unfold rewrite
  split <;> rfl

namespace Registry

/-- The entity that `async_get_entity_id` finds. -/
def find (reg : Registry) (key : Migration.Key) : Option SensorEntry := reg.entries.find? (fun e => e.key = key)

def put (reg : Registry) (new : SensorEntry)
    (h : ∀ e ∈ reg.entries, e.entityId = new.entityId → e.key = new.key) : Registry where
  entries := reg.entries.map (fun e => if e.entityId = new.entityId then new else e)
  ids := by
    have hsame : (reg.entries.map (fun e => if e.entityId = new.entityId then new else e)).map SensorEntry.entityId =
        reg.entries.map SensorEntry.entityId := by
      rw [List.map_map]
      refine List.map_congr_left (fun e _ => ?_)
      rw [Function.comp_apply]
      split
      · rename_i heq
        exact heq.symm
      · rfl
    rw [hsame]
    exact reg.ids
  keys := by
    have hsame : (reg.entries.map (fun e => if e.entityId = new.entityId then new else e)).map SensorEntry.key =
        reg.entries.map SensorEntry.key := by
      rw [List.map_map]
      refine List.map_congr_left (fun e he => ?_)
      rw [Function.comp_apply]
      split
      · rename_i heq
        exact (h e he heq).symm
      · rfl
    rw [hsame]
    exact reg.keys

theorem eq_of_entityId {reg : Registry} {e x : SensorEntry} (he : e ∈ reg.entries) (hx : x ∈ reg.entries)
    (h : e.entityId = x.entityId) : e = x := List.inj_on_of_nodup_map reg.ids he hx h

theorem eq_of_key {reg : Registry} {e x : SensorEntry} (he : e ∈ reg.entries) (hx : x ∈ reg.entries)
    (h : e.key = x.key) : e = x := List.inj_on_of_nodup_map reg.keys he hx h

/-- The options of the entity with a unique id are rewritten; `async_get` finds the entry by its entity id. -/
def changeSensorOptions (reg : Registry) (uniqueId : String) (change : Fields → Option Fields) : Registry :=
  match h : reg.find ⟨"sensor",Migration.domain,uniqueId⟩ with
  | none => reg
  | some e => reg.put (e.rewrite change) (fun x hx heq => by
      rw [e.entityId_rewrite] at heq
      rw [eq_of_entityId hx (List.mem_of_find?_eq_some h) heq,e.key_rewrite])

end Registry

section Migration
variable {σ : Type*} (T : Text) (str : Value → String) (source : Source σ) (identity : String)

def forceEntityUnit (reg : Registry) (description : SizeDescription σ) (reference : Option String) (value : Value)
    (binary : Bool) : Registry :=
  reg.changeSensorOptions (T.formatUniqueId identity description.key reference)
    (forcedOptions (scaledDataUnit value binary).1)

def resetEntityUnit (reg : Registry) (description : SizeDescription σ) (reference : Option String) : Registry :=
  reg.changeSensorOptions (T.formatUniqueId identity description.key reference)
    (resetOptions description.suggestedUnit)

def migrateDescription (reg : Registry) (description : SizeDescription σ) (binary : Bool) : Registry :=
  (descriptionReferences str source description).foldl
    (fun reg pair => forceEntityUnit T identity reg description pair.1 pair.2 binary) reg

def resetStaleForcedUnit (reg : Registry) (description : SizeDescription σ) : Registry :=
  (descriptionReferences str source description).foldl
    (fun reg pair => resetEntityUnit T identity reg description pair.1) reg

/-- `_migrate_data_size_units`, with the unit of the options or the data of the entry -/
def migrateDataSizeUnits (descriptions : List (SizeDescription σ)) (dataUnit : String) (reg : Registry) : Registry :=
  descriptions.foldl (fun reg description =>
    if description.suggestedUnit.any (fun unit => unit ∈ gbScaledUnits) then
      migrateDescription T str source identity reg description (dataUnit = "GiB")
    else resetStaleForcedUnit T str source identity reg description) reg

end Migration

end TruenasCE.Units
