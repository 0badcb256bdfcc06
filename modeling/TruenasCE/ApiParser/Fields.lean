import Mathlib.Algebra.Group.Int.Defs
import Mathlib.Algebra.Group.Nat.Defs
import TruenasCE.ApiParser.Value

/-! # Fields of a row

How `_set_val` fills a field of an entry from a row of the source, and what `fill_defaults`
writes without one.
-/
namespace TruenasCE.ApiParser
open Library

/-- What the parser takes from the interpreter: `str.strip().lower()`, `datetime.strptime` under
the format of certificates, and `str`. -/
structure Interpreter where
  normalize : String → String
  strptime : String → Option ℤ
  str : Value → String

inductive Raised
  /-- `TypeError` of a list or a dict as a key -/
  | unhashable
  /-- `ValueError` or `OverflowError` of a time behind the year 9999 -/
  | timestampOutOfRange
  /-- `ValueError` of `_validate_action` -/
  | unsupportedAction (action : String) (name : Option String)
  /-- `TypeError` of a source that cannot be iterated -/
  | notIterable
  /-- `TypeError` or `AttributeError` of an entry that is no object -/
  | notObject
  deriving DecidableEq, Repr

structure ApiValueSpec where
  name : String
  type : Option String := none
  source : Option String := none
  default : Option Value := none
  defaultVal : Option String := none
  reverse : Option Bool := none
  convert : Option String := none
  /-- Entries under other names, for `default_val` to refer to. -/
  extra : Fields := []

namespace ApiValueSpec
variable (val : ApiValueSpec)

def get : String → Option Value
  | "name" => some (.str val.name)
  | "type" => val.type.map .str
  | "source" => val.source.map .str
  | "default" => val.default
  | "default_val" => val.defaultVal.map .str
  | "reverse" => val.reverse.map .bool
  | "convert" => val.convert.map .str
  | field => val.extra.lookup field

def isBool : Bool := val.type.getD "str" = "bool"

def reversed : Bool := val.reverse.getD false

def path : String := val.source.getD val.name

def strDefault : Value := ((val.defaultVal.bind val.get).or val.default).getD (.str "")

def boolDefault : Value :=
  if val.reversed then .bool (!(val.default.getD (.bool false)).truthy) else val.default.getD (.bool false)

def specDefault : Value := if val.isBool then val.boolDefault else val.strDefault

end ApiValueSpec

/-- `_resolve_source`; `none` is `_MISSING`. -/
def resolveSource (entry : Fields) (param : String) : Option Value :=
  if '/' ∈ param.toList then
    (param.toList.splitOn '/').foldl (fun current part =>
      match current with
      | some (.dict fields) => fields.lookup (String.ofList part)
      | _ => none) (some (.dict entry))
  else entry.lookup param

def maxLen : ℕ := 255

/-- `ret[:max_len]` of a longer string -/
def truncate : Value → Value
  | .str s => .str (String.ofList (s.toList.take maxLen))
  | value => value

def fromEntry (entry : Fields) (param : String) (default : Value) : Value :=
  match resolveSource entry param with
  | none => default
  | some .none => default
  | some value => truncate value

def boolTrueValues : List String := ["on","yes","up","true","1"]
def boolFalseValues : List String := ["off","no","down","false","0"]

section Read
variable (py : Interpreter)

def coerceBool (value default : Value) : Value :=
  match value with
  | .str s =>
    if py.normalize s ∈ boolTrueValues then .bool true
    else if py.normalize s ∈ boolFalseValues then .bool false
    else default
  | .bool b => .bool b
  | _ => default

def fromEntryBool (entry : Fields) (param : String) (default : Value) (reverse : Bool) : Value :=
  match resolveSource entry param with
  | none => default
  | some value =>
    if reverse then .bool (!(coerceBool py value default).truthy) else coerceBool py value default

def millisTimestampThreshold : ℤ := 100000000000

def yearTenThousand : ℤ := 253402300800000

/-- `n / d` to the nearest integer, ties to even -/
def roundHalfEven (n d : ℕ) : ℕ :=
  if 2 * (n % d) < d then n / d
  else if d < 2 * (n % d) then n / d + 1
  else if n / d % 2 = 0 then n / d else n / d + 1

/-- `value / 1000` as a double in microseconds; there are `52 - log2` binary digits behind the point. -/
def microsecondsOfMillis (value : ℕ) : ℕ :=
  let digits := 52 - Nat.log2 (value / 1000)
  roundHalfEven (roundHalfEven (value * 2 ^ digits) 1000 * 1000000) (2 ^ digits)

example : microsecondsOfMillis 1700000000123 = 1700000000123000 := by decide

def convertTimestamp : Value → Except Raised Value
  | .int value =>
    if value ≤ 0 then .ok .none
    else if value ≤ millisTimestampThreshold then .ok (.datetime (value * 1000000))
    else if value < yearTenThousand then .ok (.datetime (microsecondsOfMillis value.toNat))
    else .error .timestampOutOfRange
  | _ => .ok .none

def humanDateToUtc : Value → Value
  | .str s =>
    match py.strptime s with
    | some time => .datetime time
    | none => .none
  | _ => .none

def convertValue (convert : Option String) (value : Value) : Except Raised Value :=
  if convert = some "utc_from_timestamp" then convertTimestamp value
  else if convert = some "human_date_to_utc" then .ok (humanDateToUtc py value)
  else .ok value

def readValue (entry : Fields) (val : ApiValueSpec) : Value :=
  if val.isBool then fromEntryBool py entry val.path val.boolDefault val.reversed
  else fromEntry entry val.path val.strDefault

def fieldValue (entry : Fields) (val : ApiValueSpec) : Except Raised Value :=
  convertValue py val.convert (readValue py entry val)

def setVal (target entry : Fields) (val : ApiValueSpec) : Except Raised Fields :=
  (fieldValue py entry val).map (fun value => Mapping.set target val.name value)

def fillVals (target entry : Fields) : List ApiValueSpec → Except Raised Fields
  | [] => .ok target
  | val :: rest =>
    match setVal py target entry val with
    | .error e => .error e
    | .ok target => fillVals target entry rest

end Read

def fillDefaults (data : Fields) (vals : List ApiValueSpec) : Fields :=
  vals.foldl (fun data val => Mapping.setDefault data val.name val.specDefault) data

def fillEnsureVals (target : Fields) (ensureVals : List ApiValueSpec) : Fields :=
  ensureVals.foldl (fun target val => Mapping.setDefault target val.name (val.default.getD (.str ""))) target

section Missing
variable {py : Interpreter} {entry : Fields} {val : ApiValueSpec}

def Missing (entry : Fields) (val : ApiValueSpec) : Prop :=
  resolveSource entry val.path = none ∨ resolveSource entry val.path = some .none

/-- `fill_vals` writes what `fill_defaults` writes for a new entry. -/
def DefaultsAgree (py : Interpreter) (entry : Fields) (val : ApiValueSpec) : Prop :=
  ∃ value, (fillDefaults [] [val]).lookup val.name = some value ∧
    ∀ target, fillVals py target entry [val] = .ok (Mapping.set target val.name value)

def Converts (val : ApiValueSpec) : Prop :=
  val.convert = some "utc_from_timestamp" ∨ val.convert = some "human_date_to_utc"

instance (val : ApiValueSpec) : Decidable (Converts val) := inferInstanceAs (Decidable (_ ∨ _))

def NullReversed (entry : Fields) (val : ApiValueSpec) : Prop :=
  val.isBool = true ∧ val.reversed = true ∧ resolveSource entry val.path = some .none

theorem lookup_fillDefaults_self (val : ApiValueSpec) :
    (fillDefaults [] [val]).lookup val.name = some val.specDefault := by
  simp [fillDefaults,Mapping.lookup_setDefault]

theorem defaultsAgree_iff_fieldValue : DefaultsAgree py entry val ↔ fieldValue py entry val = .ok val.specDefault := by
  unfold DefaultsAgree
  simp only [lookup_fillDefaults_self,Option.some.injEq,exists_eq_left']
  unfold fillVals setVal
  cases h : fieldValue py entry val with
  | error e => simp [Except.map]
  | ok value =>
    simp only [Except.map,fillVals,Except.ok.injEq]
    refine ⟨fun hall => ?_,fun heq target => by rw [heq]⟩
    have hset := congrArg (fun m => m.lookup val.name) (hall [])
    simpa using hset

theorem readValue_of_missing (h : Missing entry val) (hn : ¬ NullReversed entry val) :
    readValue py entry val = val.specDefault := by
  unfold readValue ApiValueSpec.specDefault
  split
  · rename_i hbool
    unfold fromEntryBool
    rcases h with h | h
    · rw [h]
    · rw [h]
      have hrev : val.reversed = false := by
        by_contra hrev
        exact hn ⟨hbool,by simpa using hrev,h⟩
      simp [hrev,coerceBool]
  · unfold fromEntry
    rcases h with h | h
    · rw [h]
    · rw [h]

theorem specDefault_of_nullReversed (h : NullReversed entry val) :
    ∃ b, val.specDefault = .bool b ∧ readValue py entry val = .bool (!b) := by
  obtain ⟨hbool,hrev,hnull⟩ := h
  refine ⟨!(val.default.getD (.bool false)).truthy,?_,?_⟩
  · simp [ApiValueSpec.specDefault,hbool,ApiValueSpec.boolDefault,hrev]
  · simp [readValue,hbool,fromEntryBool,hnull,hrev,coerceBool,ApiValueSpec.boolDefault,Value.truthy]

theorem none_or_datetime_of_converts {value kept : Value} (hc : Converts val)
    (h : convertValue py val.convert value = .ok kept) : kept = .none ∨ ∃ time, kept = .datetime time := by
  rcases hc with hc | hc
  · simp only [convertValue,hc,if_true] at h
    unfold convertTimestamp at h
    split at h
    · split_ifs at h
      · exact Or.inl (Except.ok.inj h).symm
      · exact Or.inr ⟨_,(Except.ok.inj h).symm⟩
      · exact Or.inr ⟨_,(Except.ok.inj h).symm⟩
    · exact Or.inl (Except.ok.inj h).symm
  · have hdate : convertValue py val.convert value = .ok (humanDateToUtc py value) := by simp [convertValue,hc]
    rw [hdate] at h
    obtain rfl := Except.ok.inj h
    unfold humanDateToUtc
    split
    · split
      · exact Or.inr ⟨_,rfl⟩
      · exact Or.inl rfl
    · exact Or.inl rfl

/-- A conversion keeps null and nothing else, and makes no boolean. -/
theorem eq_none_of_convertValue {value kept : Value} (hc : Converts val)
    (h : convertValue py val.convert value = .ok kept)
    (hk : kept = value ∨ ∃ b, kept = .bool b) : kept = .none := by
  rcases none_or_datetime_of_converts hc h with hnone | ⟨time,rfl⟩
  · exact hnone
  · rcases hk with rfl | ⟨b,hb⟩
    · rcases hc with hc | hc
      · simp [convertValue,hc,convertTimestamp] at h
      · simp [convertValue,hc,humanDateToUtc] at h
    · cases hb

theorem convertValue_none (hc : Converts val) : convertValue py val.convert .none = .ok .none := by
  rcases hc with hc | hc
  · simp [convertValue,hc,convertTimestamp]
  · simp [convertValue,hc,humanDateToUtc]

theorem convertValue_of_not_converts (hc : ¬ Converts val) (value : Value) :
    convertValue py val.convert value = .ok value := by
  unfold Converts at hc
  rw [not_or] at hc
  simp [convertValue,hc.1,hc.2]

/-- For a missing value `fill_vals` and `fill_defaults` agree exactly if the default is null where the
field is converted, and the value is not a null that is read as a reversed boolean elsewhere. -/
theorem defaultsAgree_iff (py : Interpreter) (entry : Fields) (val : ApiValueSpec) (h : Missing entry val) :
    DefaultsAgree py entry val ↔ if Converts val then val.specDefault = .none else ¬ NullReversed entry val := by
  rw [defaultsAgree_iff_fieldValue,fieldValue]
  by_cases hn : NullReversed entry val
  · obtain ⟨b,hdefault,hread⟩ := @specDefault_of_nullReversed py entry val hn
    rw [hdefault,hread]
    split
    · rename_i hc
      refine ⟨fun hv => eq_none_of_convertValue hc hv (Or.inr ⟨b,rfl⟩),fun hv => by cases hv⟩
    · rename_i hc
      rw [convertValue_of_not_converts hc]
      simp [hn]
  · rw [readValue_of_missing h hn]
    split
    · rename_i hc
      refine ⟨fun hv => eq_none_of_convertValue hc hv (Or.inl rfl),fun hv => ?_⟩
      rw [hv]
      exact convertValue_none hc
    · rename_i hc
      rw [convertValue_of_not_converts hc]
      simp [hn]

/-- `lower` of ASCII letters, for strings without blanks around; no certificate dates. -/
def plain : Interpreter where
  normalize s := String.ofList (s.toList.map Char.toLower)
  strptime _ := none
  str _ := ""

/-- The enabled flag of a task that is missing. -/
theorem defaultsAgree_iff_enabled : DefaultsAgree plain [] { name := "enabled", type := some "bool" } ↔
    if Converts { name := "enabled", type := some "bool" } then
      ApiValueSpec.specDefault { name := "enabled", type := some "bool" } = .none
    else ¬ NullReversed [] { name := "enabled", type := some "bool" } :=
  defaultsAgree_iff plain [] { name := "enabled", type := some "bool" } (Or.inl rfl)

/-- A null is read as the opposite of its default. -/
theorem not_defaultsAgree_of_null : ¬ ∀ py entry val, Missing entry val → DefaultsAgree py entry val := by
  intro hall
  have h := hall plain [("locked",.none)] { name := "locked", type := some "bool", reverse := some true } (Or.inr rfl)
  rw [defaultsAgree_iff_fieldValue] at h
  cases h

end Missing
end TruenasCE.ApiParser
