import TruenasCE.Library.Settling
import TruenasCE.Units.Registry

/-! # What a start makes of the units

The loops over descriptions and rows give orders to entities, one after the other. Each entity ends with the unit that
its own orders leave, nothing else of it changes, and a second start with the same data leaves it as it is.
-/
namespace TruenasCE.Units
open Library
open Identity (Text)
open ApiParser (Fields Value dictGet dictGet_set)

namespace SensorEntry
variable (e : SensorEntry)

def unit : Value := unitOf e.sensorOptions

@[simp] theorem sensorOptions_withSensorOptions (options : Fields) :
    (e.withSensorOptions options).sensorOptions = options := by
  have hnone : (Mapping.retain e.options (fun domain => domain ≠ "sensor")).lookup "sensor" = none := by
    rw [Mapping.lookup_retain]
    simp
  unfold sensorOptions withSensorOptions
  rw [List.lookup_append,hnone,Option.none_or,Mapping.lookup_cons,if_pos rfl,Option.getD_some]

theorem lookup_withSensorOptions {options : Fields} {domain : String} (h : domain ≠ "sensor") :
    (e.withSensorOptions options).options.lookup domain = e.options.lookup domain := by
  unfold withSensorOptions
  rw [List.lookup_append,Mapping.lookup_retain,Mapping.lookup_cons,if_neg h,Mapping.lookup_nil]
  simp [h]

theorem option_sensor (name : String) : e.option "sensor" name = e.sensorOptions.lookup name := by
  unfold option sensorOptions
  cases e.options.lookup "sensor" with
  | none => rfl
  | some options => rfl

/-- Two states of an entity, alike in everything but the unit. -/
structure AlikeButUnit (e e' : SensorEntry) : Prop where
  key : e'.key = e.key
  entityId : e'.entityId = e.entityId
  option : ∀ domain name, ¬(domain = "sensor" ∧ name = "unit_of_measurement") →
    e'.option domain name = e.option domain name

theorem AlikeButUnit.refl : AlikeButUnit e e := ⟨rfl,rfl,fun _ _ _ => rfl⟩

variable {e}

theorem AlikeButUnit.trans {e' e'' : SensorEntry} (h : AlikeButUnit e e') (h' : AlikeButUnit e' e'') :
    AlikeButUnit e e'' where
  key := h'.key.trans h.key
  entityId := h'.entityId.trans h.entityId
  option := fun domain name hn => (h'.option domain name hn).trans (h.option domain name hn)

end SensorEntry

inductive UnitOrder where
  | force (unit : String)
  | reset (targetUnit : Option String)

namespace UnitOrder

def change : UnitOrder → Fields → Option Fields
  | force unit => forcedOptions unit
  | reset targetUnit => resetOptions targetUnit

def settle : UnitOrder → Value → Value
  | force unit, _ => .str unit
  | reset targetUnit, unit => if targetUnit.any (isText unit) then unit else .none

theorem eq_str_of_isText {value : Value} {text : String} (h : isText value text = true) : value = .str text := by
  unfold isText at h
  split at h
  · rw [of_decide_eq_true h]
  · exact absurd h Bool.false_ne_true

variable {options options' : Fields} {name : String}

theorem lookup_of_change {order : UnitOrder} (h : order.change options = some options')
    (hname : name ≠ "unit_of_measurement") : options'.lookup name = options.lookup name := by
  cases order with
  | force unit =>
    simp only [change,forcedOptions] at h
    split at h
    · exact absurd h (by simp)
    · rw [← Option.some.inj h,Mapping.lookup_set_of_ne hname]
  | reset targetUnit =>
    simp only [change,resetOptions] at h
    split at h
    · exact absurd h (by simp)
    · split at h
      · exact absurd h (by simp)
      · rw [← Option.some.inj h,Mapping.lookup_retain,if_pos (by simpa using hname)]

theorem unitOf_change (order : UnitOrder) (options : Fields) :
    unitOf ((order.change options).getD options) = order.settle (unitOf options) := by
  cases order with
  | force unit =>
    simp only [change,forcedOptions,settle]
    split
    · rename_i htext
      exact eq_str_of_isText htext
    · rw [Option.getD_some]
      unfold unitOf
      rw [dictGet_set,if_pos rfl]
  | reset targetUnit =>
    simp only [change,resetOptions,settle]
    split
    · rename_i hnone
      rw [Option.getD_none,hnone]
      split
      · rfl
      · rfl
    · split
      · rfl
      · rw [Option.getD_some]
        unfold unitOf dictGet
        rw [Mapping.lookup_retain,if_neg (by simp)]
        rfl

theorem settles (order : UnitOrder) : Settles Value.none order.settle := by
  cases order with
  | force unit => exact settles_const _
  | reset targetUnit =>
    refine Or.inr ⟨?_,fun unit => ?_⟩
    · simp only [settle]
      split
      · rfl
      · rfl
    · simp only [settle]
      split
      · exact Or.inl rfl
      · exact Or.inr rfl

end UnitOrder

def sensorKey (uniqueId : String) : Migration.Key := ⟨"sensor",Migration.domain,uniqueId⟩

namespace SensorEntry
variable (e : SensorEntry)

theorem alikeButUnit_rewrite (order : UnitOrder) : AlikeButUnit e (e.rewrite order.change) := by
  refine ⟨e.key_rewrite order.change,e.entityId_rewrite order.change,fun domain name hname => ?_⟩
  unfold rewrite
  split
  · rename_i options hchange
    by_cases hdomain : domain = "sensor"
    · have hunit : name ≠ "unit_of_measurement" := fun h => hname ⟨hdomain,h⟩
      rw [hdomain,option_sensor,option_sensor,sensorOptions_withSensorOptions]
      exact UnitOrder.lookup_of_change hchange hunit
    · unfold option
      rw [e.lookup_withSensorOptions hdomain]
  · rfl

theorem unit_rewrite (order : UnitOrder) : (e.rewrite order.change).unit = order.settle e.unit := by
  have h := UnitOrder.unitOf_change order e.sensorOptions
  unfold rewrite unit
  cases hchange : order.change e.sensorOptions with
  | none =>
    rw [hchange,Option.getD_none] at h
    exact h
  | some options =>
    rw [hchange,Option.getD_some] at h
    simp only [sensorOptions_withSensorOptions]
    exact h

/-- An entity meets an order for a unique id. -/
def obey (e : SensorEntry) (order : String × UnitOrder) : SensorEntry :=
  if e.key = sensorKey order.1 then e.rewrite order.2.change else e

theorem alikeButUnit_obey (order : String × UnitOrder) : AlikeButUnit e (e.obey order) := by
  unfold obey
  split
  · exact e.alikeButUnit_rewrite order.2
  · exact AlikeButUnit.refl e

def settled (key : Migration.Key) (orders : List (String × UnitOrder)) (unit : Value) : Value :=
  orders.foldl (fun unit order => if key = sensorKey order.1 then order.2.settle unit else unit) unit

theorem unit_obey (order : String × UnitOrder) : (e.obey order).unit = settled e.key [order] e.unit := by
  unfold obey settled
  rw [List.foldl_cons,List.foldl_nil]
  split
  · exact e.unit_rewrite order.2
  · rfl

theorem alikeButUnit_foldl (orders : List (String × UnitOrder)) : AlikeButUnit e (orders.foldl obey e) := by
  induction orders generalizing e with
  | nil => exact AlikeButUnit.refl e
  | cons order orders ih => exact (e.alikeButUnit_obey order).trans (ih (e.obey order))

theorem unit_foldl (orders : List (String × UnitOrder)) :
    (orders.foldl obey e).unit = settled e.key orders e.unit := by
  induction orders generalizing e with
  | nil => rfl
  | cons order orders ih =>
    rw [List.foldl_cons,ih,unit_obey,(e.alikeButUnit_obey order).key]
    rfl

theorem settles_settled (key : Migration.Key) (orders : List (String × UnitOrder)) :
    Settles Value.none (settled key orders) := by
  refine settles_foldl (fun order _ => ?_)
  by_cases h : key = sensorKey order.1
  · simp only [if_pos h]
    exact order.2.settles
  · simp only [if_neg h]
    exact settles_id

theorem settled_of_forall_ne {key : Migration.Key} {orders : List (String × UnitOrder)} {unit : Value}
    (h : ∀ order ∈ orders, key ≠ sensorKey order.1) : settled key orders unit = unit := by
  induction orders with
  | nil => rfl
  | cons order orders ih =>
    have hne := h order List.mem_cons_self
    have hrest := ih (fun o ho => h o (List.mem_cons_of_mem order ho))
    unfold settled at hrest ⊢
    rw [List.foldl_cons,if_neg hne]
    exact hrest

theorem settled_append_force {key : Migration.Key} {uniqueId unit : String} {pre post : List (String × UnitOrder)}
    (hkey : key = sensorKey uniqueId) (hpost : ∀ order ∈ post, key ≠ sensorKey order.1) (before : Value) :
    settled key (pre ++ (uniqueId,.force unit) :: post) before = .str unit := by
  have h := @settled_of_forall_ne key post (.str unit) hpost
  unfold settled at h ⊢
  rw [List.foldl_append,List.foldl_cons,if_pos hkey]
  exact h

end SensorEntry

namespace Registry

theorem entries_changeSensorOptions (reg : Registry) (uniqueId : String) (change : Fields → Option Fields) :
    (reg.changeSensorOptions uniqueId change).entries =
      reg.entries.map (fun e => if e.key = sensorKey uniqueId then e.rewrite change else e) := by
  unfold changeSensorOptions
  split
  · rename_i hfind
    have hsame : ∀ e ∈ reg.entries, (if e.key = sensorKey uniqueId then e.rewrite change else e) = e := by
      intro e he
      have hne := List.find?_eq_none.mp hfind e he
      rw [if_neg (by simpa [sensorKey] using hne)]
    rw [List.map_congr_left hsame,List.map_id']
  · rename_i found hfind
    have hmem := List.mem_of_find?_eq_some hfind
    have hkey : found.key = sensorKey uniqueId := by simpa [sensorKey] using List.find?_some hfind
    refine List.map_congr_left (fun e he => ?_)
    rw [found.entityId_rewrite]
    by_cases h : e.entityId = found.entityId
    · have heq := eq_of_entityId he hmem h
      rw [if_pos h,heq,if_pos hkey]
    · have hne : e.key ≠ sensorKey uniqueId := by
        intro hk
        exact h (congrArg SensorEntry.entityId (eq_of_key he hmem (hk.trans hkey.symm)))
      rw [if_neg h,if_neg hne]

theorem entries_foldl {β : Type*} {step : Registry → β → Registry} {g : SensorEntry → β → SensorEntry}
    (h : ∀ reg b, (step reg b).entries = reg.entries.map (fun e => g e b)) (bs : List β) (reg : Registry) :
    (bs.foldl step reg).entries = reg.entries.map (fun e => bs.foldl g e) := by
  induction bs generalizing reg with
  | nil => simp
  | cons b bs ih =>
    rw [List.foldl_cons,ih,h,List.map_map]
    rfl

end Registry

section Start
variable {σ : Type*} (T : Text) (str : Value → String) (source : Source σ) (identity : String)

def descriptionOrders (dataUnit : String) (description : SizeDescription σ) : List (String × UnitOrder) :=
  (descriptionReferences str source description).map (fun pair =>
    (T.formatUniqueId identity description.key pair.1,
      if description.suggestedUnit.any (fun unit => unit ∈ gbScaledUnits) then
        .force (scaledDataUnit pair.2 (dataUnit = "GiB")).1
      else .reset description.suggestedUnit))

def unitOrders (descriptions : List (SizeDescription σ)) (dataUnit : String) : List (String × UnitOrder) :=
  descriptions.flatMap (descriptionOrders T str source identity dataUnit)

theorem entries_migrateDescription (description : SizeDescription σ) (binary : Bool) (reg : Registry) :
    (migrateDescription T str source identity reg description binary).entries = reg.entries.map (fun e =>
      (descriptionReferences str source description).foldl (fun e pair =>
        e.obey (T.formatUniqueId identity description.key pair.1,.force (scaledDataUnit pair.2 binary).1)) e) :=
  Registry.entries_foldl (fun reg pair => reg.entries_changeSensorOptions
    (T.formatUniqueId identity description.key pair.1) (forcedOptions (scaledDataUnit pair.2 binary).1)) _ reg

theorem entries_resetStaleForcedUnit (description : SizeDescription σ) (reg : Registry) :
    (resetStaleForcedUnit T str source identity reg description).entries = reg.entries.map (fun e =>
      (descriptionReferences str source description).foldl (fun e pair =>
        e.obey (T.formatUniqueId identity description.key pair.1,.reset description.suggestedUnit)) e) :=
  Registry.entries_foldl (fun reg pair => reg.entries_changeSensorOptions
    (T.formatUniqueId identity description.key pair.1) (resetOptions description.suggestedUnit)) _ reg

variable (descriptions : List (SizeDescription σ)) (dataUnit : String) (reg : Registry)

/-- The loops over descriptions and rows are one fold over the orders. -/
theorem entries_migrateDataSizeUnits :
    (migrateDataSizeUnits T str source identity descriptions dataUnit reg).entries =
      reg.entries.map (fun e => (unitOrders T str source identity descriptions dataUnit).foldl SensorEntry.obey e) := by
  unfold migrateDataSizeUnits unitOrders
  simp only [List.foldl_flatMap]
  refine Registry.entries_foldl (fun reg description => ?_) descriptions reg
  unfold descriptionOrders
  simp only [List.foldl_map]
  split
  · exact entries_migrateDescription T str source identity description (dataUnit = "GiB") reg
  · exact entries_resetStaleForcedUnit T str source identity description reg

/-- What an entity of the description is told: on the GB scale the unit of its value, elsewhere the unit to go back to. -/
inductive Due (description : SizeDescription σ) (value : Value) : UnitOrder → Prop
  | force {suggested unit : String} (hsuggested : description.suggestedUnit = some suggested)
    (hscale : suggested = "GB" ∨ suggested = "GiB") (hunit : Scaled (dataUnit = "GiB") value unit) :
    Due description value (.force unit)
  | reset (hoff : description.suggestedUnit ≠ some "GB" ∧ description.suggestedUnit ≠ some "GiB") :
    Due description value (.reset description.suggestedUnit)

variable {dataUnit} in
theorem due_iff {description : SizeDescription σ} {value : Value} {order : UnitOrder} :
    Due dataUnit description value order ↔
      (if description.suggestedUnit.any (fun unit => unit ∈ gbScaledUnits) then
        .force (scaledDataUnit value (dataUnit = "GiB")).1
      else .reset description.suggestedUnit) = order := by
  constructor
  · intro h
    cases h with
    | force hsuggested hscale hunit =>
      rw [if_pos (by simp [hsuggested,gbScaledUnits,hscale]),scaled_iff.mp hunit]
    | reset hoff =>
      rw [if_neg]
      cases hunit : description.suggestedUnit with
      | none => simp
      | some unit => simpa [hunit,gbScaledUnits] using hoff
  · intro h
    split at h
    · rename_i hany
      rw [← h]
      cases hsuggested : description.suggestedUnit with
      | none => simp [hsuggested] at hany
      | some suggested =>
        have hscale : suggested = "GB" ∨ suggested = "GiB" := by simpa [hsuggested,gbScaledUnits] using hany
        exact .force hsuggested hscale (scaled_scaledDataUnit _ _)
    · rename_i hany
      rw [← h]
      refine .reset ⟨fun hunit => hany ?_,fun hunit => hany ?_⟩
      · simp [hunit,gbScaledUnits]
      · simp [hunit,gbScaledUnits]

variable {descriptions} {dataUnit} in
theorem mem_unitOrders_iff {uniqueId : String} {order : UnitOrder} :
    (uniqueId,order) ∈ unitOrders T str source identity descriptions dataUnit ↔
      ∃ description ∈ descriptions, ∃ reference value, Produces str source description reference value ∧
        uniqueId = T.formatUniqueId identity description.key reference ∧ Due dataUnit description value order := by
  unfold unitOrders descriptionOrders
  rw [List.mem_flatMap]
  refine exists_congr (fun description => and_congr_right (fun _ => ?_))
  rw [List.mem_map]
  constructor
  · rintro ⟨⟨reference,value⟩,hmem,heq⟩
    obtain ⟨hid,horder⟩ := Prod.mk.inj heq
    exact ⟨reference,value,produces_of_mem str source description hmem,hid.symm,due_iff.mpr horder⟩
  · rintro ⟨reference,value,hproduces,hid,hdue⟩
    exact ⟨(reference,value),mem_of_produces str source description hproduces,
      Prod.ext hid.symm (due_iff.mp hdue)⟩

/-- Every entity keeps all but its unit, which is the one that the orders for it leave; if the last of them forces a unit
it is that one. The orders are those due to the entities of the descriptions. A second start with the same data changes
nothing. -/
theorem migrateDataSizeUnits_law :
    List.Forall₂ (fun e e' => e.AlikeButUnit e' ∧
      e'.unit = SensorEntry.settled e.key (unitOrders T str source identity descriptions dataUnit) e.unit ∧
      (∀ pre uniqueId unit post,
        unitOrders T str source identity descriptions dataUnit = pre ++ (uniqueId,.force unit) :: post →
        e.key = sensorKey uniqueId → (∀ order ∈ post, e.key ≠ sensorKey order.1) → e'.unit = .str unit))
      reg.entries (migrateDataSizeUnits T str source identity descriptions dataUnit reg).entries ∧
    (∀ uniqueId order, (uniqueId,order) ∈ unitOrders T str source identity descriptions dataUnit ↔
      ∃ description ∈ descriptions, ∃ reference value, Produces str source description reference value ∧
        uniqueId = T.formatUniqueId identity description.key reference ∧ Due dataUnit description value order) ∧
    List.Forall₂ (fun e e' => e.AlikeButUnit e' ∧ e'.unit = e.unit)
      (migrateDataSizeUnits T str source identity descriptions dataUnit reg).entries
      (migrateDataSizeUnits T str source identity descriptions dataUnit
        (migrateDataSizeUnits T str source identity descriptions dataUnit reg)).entries := by
  set orders := unitOrders T str source identity descriptions dataUnit
  set start := migrateDataSizeUnits T str source identity descriptions dataUnit
  have hentries : ∀ r : Registry, (start r).entries = r.entries.map (fun e => orders.foldl SensorEntry.obey e) :=
    entries_migrateDataSizeUnits T str source identity descriptions dataUnit
  refine ⟨?_,fun uniqueId order => mem_unitOrders_iff T str source identity,?_⟩
  · rw [hentries,List.forall₂_map_right_iff,List.forall₂_same]
    intro e _
    have hunit := e.unit_foldl orders
    refine ⟨e.alikeButUnit_foldl orders,hunit,fun pre uniqueId unit post horders hkey hpost => ?_⟩
    rw [hunit,horders]
    exact SensorEntry.settled_append_force hkey hpost e.unit
  · rw [hentries (start reg),List.forall₂_map_right_iff,List.forall₂_same]
    intro e' he'
    refine ⟨e'.alikeButUnit_foldl orders,?_⟩
    rw [hentries] at he'
    obtain ⟨e,_,he⟩ := List.mem_map.mp he'
    have hfirst : e'.unit = SensorEntry.settled e.key orders e.unit := by rw [← he,e.unit_foldl]
    have hkey : e'.key = e.key := by rw [← he,(e.alikeButUnit_foldl orders).key]
    rw [e'.unit_foldl,hkey,hfirst]
    exact (SensorEntry.settles_settled e.key orders).idem e.unit

end Start

end TruenasCE.Units
