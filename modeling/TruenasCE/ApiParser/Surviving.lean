import TruenasCE.ApiParser.Total

/-! # Rows that survive

What a filter, a uid and the value of a field are, told without the parser, and that its own
functions decide them.
-/
namespace TruenasCE.ApiParser
open Library

/-- The row has the value of every filter; a field it lacks is null. -/
def PassesOnly (entry : Fields) (only : List (String × Value)) : Prop :=
  ∀ field value, (field,value) ∈ only → (dictGet entry field).eq value = true

/-- The row has the value of some filter, or lacks a field that is to be skipped when empty. -/
def Skipped (entry : Fields) (skip : List (String × Value)) : Prop :=
  ∃ field value, (field,value) ∈ skip ∧
    ((∃ x, entry.lookup field = some x ∧ x.eq value = true) ∨ (entry.lookup field = none ∧ value = .str ""))

/-- The string under the key, or under the secondary key where the key is missing; with a field to search by,
the uid of the last previous object that has the same value. -/
inductive ResolvesTo (a : Spec) (data : Rows) (entry : Fields) : Key → Prop
  | byKey {key uid : String} (hsearch : given a.keySearch = none) (hkey : a.key = some key)
    (h : entry.lookup key = some (.str uid)) : ResolvesTo a data entry (.str uid)
  | bySecondary {key uid : String} (hsearch : given a.keySearch = none)
    (habsent : ∀ key, a.key = some key → entry.lookup key = none) (hkey : a.keySecondary = some key)
    (h : entry.lookup key = some (.str uid)) : ResolvesTo a data entry (.str uid)
  | bySearch {field : String} {uid : Key} {previous : Fields} {value : Value} {earlier later : Rows}
    (hsearch : given a.keySearch = some field) (h : entry.lookup field = some value)
    (hdata : data = earlier ++ (uid,.dict previous) :: later) (hprevious : previous.lookup field = some value)
    (hlast : ∀ uid' other, (uid',Value.dict other) ∈ later → other.lookup field ≠ some value)
    (huid : uid ≠ .none) : ResolvesTo a data entry uid

structure Survives (a : Spec) (data : Rows) (entry : Fields) (uid : Key) : Prop where
  only : PassesOnly entry a.only
  skip : ¬ Skipped entry a.skip
  uid : ResolvesTo a data entry uid

/-- A value of a key field that is null or a string. -/
def PlainKey : Value → Prop
  | .none | .str _ => True
  | _ => False

/-- The key fields of the row are null or strings. -/
def PlainKeys (a : Spec) (entry : Fields) : Prop :=
  ∀ field, field ∈ a.key ∨ field ∈ a.keySecondary ∨ field ∈ a.keySearch →
    ∀ value, entry.lookup field = some value → PlainKey value

/-- The value that a path of names leads to. -/
inductive Reaches : List String → Value → Value → Prop
  | here (x : Value) : Reaches [] x x
  | inside {fields : Fields} {name : String} {path : List String} {x y : Value} (h : fields.lookup name = some x)
    (hrest : Reaches path x y) : Reaches (name :: path) (.dict fields) y

def pathNames (path : String) : List String := (path.toList.splitOn '/').map String.ofList

/-- A boolean, or a string that stands for one -/
inductive AsBool (py : Interpreter) : Value → Bool → Prop
  | bool (b : Bool) : AsBool py (.bool b) b
  | yes {s : String} (h : py.normalize s ∈ boolTrueValues) : AsBool py (.str s) true
  | no {s : String} (h : py.normalize s ∈ boolFalseValues) : AsBool py (.str s) false

/-- What a field of the row says: its value, or the default where that is missing, null or no boolean for a
boolean field. -/
inductive ReadsAs (py : Interpreter) (entry : Fields) (val : ApiValueSpec) : Value → Prop
  | missing (h : ∀ x, Reaches (pathNames val.path) (.dict entry) x → x = .none) : ReadsAs py entry val val.specDefault
  | value {x : Value} (hbool : val.isBool = false) (h : Reaches (pathNames val.path) (.dict entry) x) (hx : x ≠ .none) :
    ReadsAs py entry val (truncate x)
  | bool {x : Value} {b : Bool} (hbool : val.isBool = true) (h : Reaches (pathNames val.path) (.dict entry) x)
    (hb : AsBool py x b) : ReadsAs py entry val (.bool (b != val.reversed))
  | noBool {x : Value} (hbool : val.isBool = true) (h : Reaches (pathNames val.path) (.dict entry) x)
    (hb : ∀ b, ¬ AsBool py x b) : ReadsAs py entry val val.specDefault

/-- Seconds, or milliseconds where they would be too many, in microseconds -/
def instant (time : ℤ) : ℤ :=
  if time ≤ millisTimestampThreshold then time * 1000000 else microsecondsOfMillis time.toNat

/-- What the conversion of a field makes of a value: a time, or null of what is none. -/
inductive Becomes (py : Interpreter) (val : ApiValueSpec) : Value → Value → Prop
  | timestamp {time : ℤ} (hc : val.convert = some "utc_from_timestamp") (h : 0 < time) :
    Becomes py val (.int time) (.datetime (instant time))
  | noTimestamp {x : Value} (hc : val.convert = some "utc_from_timestamp") (h : ∀ time, 0 < time → x ≠ .int time) :
    Becomes py val x .none
  | date {s : String} {time : ℤ} (hc : val.convert = some "human_date_to_utc") (h : py.strptime s = some time) :
    Becomes py val (.str s) (.datetime time)
  | noDate {x : Value} (hc : val.convert = some "human_date_to_utc")
    (h : ∀ s time, x = .str s → py.strptime s ≠ some time) : Becomes py val x .none
  | kept (x : Value) (hc : ¬ Converts val) : Becomes py val x x

def IsFieldOf (py : Interpreter) (entry : Fields) (val : ApiValueSpec) (value : Value) : Prop :=
  ∃ x, ReadsAs py entry val x ∧ Becomes py val x value

def InTime (py : Interpreter) (entry : Fields) (val : ApiValueSpec) : Prop :=
  val.convert = some "utc_from_timestamp" → ∀ time, ReadsAs py entry val (.int time) → time < yearTenThousand

/-- What a reversed field without conversion has is a boolean or stands for one. -/
def Reversible (py : Interpreter) (entry : Fields) (val : ApiValueSpec) : Prop :=
  ¬ Converts val → val.isBool = true → val.reversed = true →
    ∀ x, Reaches (pathNames val.path) (.dict entry) x → ∃ b, AsBool py x b

section Rows
variable {a : Spec} {data : Rows} {entry : Fields} {uid : Key} {value : Value}

theorem shouldSkipEntry_eq_false_iff {only skip : List (String × Value)} :
    shouldSkipEntry entry only skip = false ↔ PassesOnly entry only ∧ ¬ Skipped entry skip := by
  unfold shouldSkipEntry
  rw [Bool.or_eq_false_iff,Bool.not_eq_false',← Bool.not_eq_true]
  apply and_congr
  · unfold matchesOnly PassesOnly dictGet
    rw [List.all_eq_true,Prod.forall]
  · apply not_congr
    unfold canSkip Skipped
    rw [List.any_eq_true,Prod.exists]
    refine exists_congr (fun field => exists_congr (fun value => and_congr_right' ?_))
    cases h : entry.lookup field with
    | none => simp [h]
    | some x => simp [h]

theorem key?_eq_iff_of_plainKey {other : Value} (h : PlainKey value) : other.key? = value.key? ↔ other = value := by
  cases value with
  | none =>
    cases other with
    | float f => cases f <;> simp [Value.key?]
    | none | bool | int | str | list | dict | datetime => simp [Value.key?]
  | str s =>
    cases other with
    | float f => cases f <;> simp [Value.key?]
    | none | bool | int | str | list | dict | datetime => simp [Value.key?]
  | bool | int | float | list | dict | datetime => exact absurd h id

theorem isSome_key?_of_plainKey (h : PlainKey value) : value.key?.isSome = true := by
  cases value with
  | none | str => rfl
  | bool | int | float | list | dict | datetime => exact absurd h id

theorem lookup_reverse {κ β : Type*} [DecidableEq κ] (m : Mapping κ β) (k : κ) :
    m.reverse.lookup k = lastSome (fun p => if p.1 = k then some p.2 else none) m := by
  induction m with
  | nil => rfl
  | cons p rest ih =>
    rw [List.reverse_cons,Mapping.lookup_append,ih,lastSome,Mapping.lookup_cons,Mapping.lookup_nil]
    simp only [eq_comm]

def uidOf (field : String) (value : Value) (row : Key × Value) : Option Key :=
  match row.2 with
  | .dict fields => if (fields.lookup field).bind Value.key? = value.key? then some row.1 else none
  | _ => none

theorem uidOf_eq_some_iff {field : String} {row : Key × Value} (h : PlainKey value) :
    uidOf field value row = some uid ↔ ∃ fields, row = (uid,.dict fields) ∧ fields.lookup field = some value := by
  obtain ⟨uid',previous⟩ := row
  have hhas : ∀ fields : Fields, (fields.lookup field).bind Value.key? = value.key? ↔ fields.lookup field = some value := by
    intro fields
    cases fields.lookup field with
    | none =>
      rw [Option.bind_none]
      refine ⟨fun hkey => ?_,fun hvalue => by cases hvalue⟩
      have hsome := isSome_key?_of_plainKey h
      rw [← hkey] at hsome
      cases hsome
    | some other => rw [Option.bind_some,key?_eq_iff_of_plainKey h,Option.some.injEq]
  cases previous with
  | dict fields =>
    simp only [uidOf,Prod.mk.injEq,Value.dict.injEq]
    split
    · rename_i hvalue
      rw [hhas] at hvalue
      constructor
      · intro huid
        exact ⟨fields,⟨Option.some.inj huid,rfl⟩,hvalue⟩
      · rintro ⟨_,⟨rfl,rfl⟩,-⟩
        rfl
    · rename_i hvalue
      rw [hhas] at hvalue
      constructor
      · intro huid
        cases huid
      · rintro ⟨_,⟨-,rfl⟩,hfields⟩
        exact absurd hfields hvalue
  | none | bool | int | float | str | list | datetime => simp [uidOf]

theorem lookup_generateKeymap {field : String} {k : Key} (hk : value.key? = some k) :
    (generateKeymap data field).reverse.lookup k = lastSome (uidOf field value) data := by
  rw [lookup_reverse]
  unfold generateKeymap
  rw [lastSome_filterMap]
  congr 1
  funext row
  obtain ⟨uid,previous⟩ := row
  cases previous with
  | dict fields =>
    simp only [uidOf,hk]
    cases (fields.lookup field).bind Value.key? with
    | none => simp
    | some l => simp
  | none | bool | int | float | str | list | datetime => rfl

/-- In search mode the keymap leads to the last previous object that has the value of the row. -/
theorem lastSome_uidOf_eq_some_iff {field : String} (h : PlainKey value) :
    lastSome (uidOf field value) data = some uid ↔
      ∃ earlier previous later, data = earlier ++ (uid,.dict previous) :: later ∧ previous.lookup field = some value ∧
        ∀ uid' other, (uid',Value.dict other) ∈ later → other.lookup field ≠ some value := by
  have hnone : ∀ later : Rows, (∀ row ∈ later, uidOf field value row = none) ↔
      ∀ uid' other, (uid',Value.dict other) ∈ later → other.lookup field ≠ some value := by
    intro later
    constructor
    · intro hall uid' other hmem hother
      have hsome : uidOf field value (uid',.dict other) = some uid' := (uidOf_eq_some_iff h).mpr ⟨other,rfl,hother⟩
      rw [hall _ hmem] at hsome
      cases hsome
    · intro hall row hmem
      cases hrow : uidOf field value row with
      | none => rfl
      | some uid' =>
        obtain ⟨other,rfl,hother⟩ := (uidOf_eq_some_iff h).mp hrow
        exact absurd hother (hall uid' other hmem)
  rw [lastSome_eq_some_iff]
  constructor
  · rintro ⟨before,row,after,rfl,hrow,hafter⟩
    obtain ⟨previous,rfl,hprevious⟩ := (uidOf_eq_some_iff h).mp hrow
    exact ⟨before,previous,after,rfl,hprevious,(hnone after).mp hafter⟩
  · rintro ⟨earlier,previous,later,rfl,hprevious,hlast⟩
    exact ⟨earlier,_,later,rfl,(uidOf_eq_some_iff h).mpr ⟨previous,rfl,hprevious⟩,(hnone later).mpr hlast⟩

theorem resolveEntryUid_of_search {field : String} (hsearch : given a.keySearch = some field)
    (hvalue : entry.lookup field = some value) (hplain : PlainKey value) :
    resolveEntryUid a (a.keymap data) entry = .ok (some uid) ↔
      lastSome (uidOf field value) data = some uid ∧ uid ≠ .none := by
  obtain ⟨k,hk⟩ := Option.isSome_iff_exists.mp (isSome_key?_of_plainKey hplain)
  rw [← lookup_generateKeymap hk]
  have hkeymap : a.keymap data = generateKeymap data field := by simp [Spec.keymap,hsearch]
  rw [hkeymap]
  unfold resolveEntryUid Spec.keyValue
  rw [hsearch]
  by_cases hempty : generateKeymap data field = []
  · simp [hempty]
  · simp [hempty,hvalue,hk,Option.filter_eq_some_iff]

theorem resolveEntryUid_of_key {keymap : Mapping Key Key} (hsearch : given a.keySearch = none) (h : PlainKeys a entry) :
    resolveEntryUid a keymap entry = .ok (some uid) ↔
      ∃ s, uid = .str s ∧ (a.key.bind (fun key => entry.lookup key) = some (.str s) ∨
        (a.key.bind (fun key => entry.lookup key) = none ∧
          a.keySecondary.bind (fun key => entry.lookup key) = some (.str s))) := by
  have hstr : ∀ value, PlainKey value →
      ((value.isNone = false ∧ value.key? = some uid) ↔ ∃ s, uid = .str s ∧ value = .str s) := by
    intro value hplain
    cases value with
    | none => simp [Value.isNone]
    | str s => simp [Value.isNone,Value.key?,eq_comm]
    | bool | int | float | list | dict | datetime => exact absurd hplain id
  have hkeyValue : ∀ value, a.keyValue keymap entry = some value ↔
      (a.key.bind (fun key => entry.lookup key) = some value ∨ (a.key.bind (fun key => entry.lookup key) = none ∧
        a.keySecondary.bind (fun key => entry.lookup key) = some value)) ∧ value.isNone = false := by
    intro value
    unfold Spec.keyValue
    rw [hsearch]
    simp only [Option.filter_eq_some_iff,Option.or_eq_some_iff,Bool.not_eq_true']
  have hplain : ∀ value, a.keyValue keymap entry = some value → PlainKey value := by
    intro value hvalue
    rcases ((hkeyValue value).mp hvalue).1 with hkey | ⟨-,hkey⟩
    · obtain ⟨key,hmem,hlookup⟩ := Option.bind_eq_some_iff.mp hkey
      exact h key (Or.inl hmem) value hlookup
    · obtain ⟨key,hmem,hlookup⟩ := Option.bind_eq_some_iff.mp hkey
      exact h key (Or.inr (Or.inl hmem)) value hlookup
  have hread : resolveEntryUid a keymap entry = .ok (some uid) ↔
      ∃ value, a.keyValue keymap entry = some value ∧ value.key? = some uid := by
    unfold resolveEntryUid
    cases a.keyValue keymap entry with
    | none => simp
    | some value =>
      cases hk : value.key? with
      | none => simp [hk]
      | some k => simp [hk,hsearch]
  rw [hread]
  constructor
  · rintro ⟨value,hvalue,hk⟩
    obtain ⟨hwhere,hnull⟩ := (hkeyValue value).mp hvalue
    obtain ⟨s,rfl,rfl⟩ := (hstr value (hplain value hvalue)).mp ⟨hnull,hk⟩
    exact ⟨s,rfl,hwhere⟩
  · rintro ⟨s,rfl,hwhere⟩
    exact ⟨.str s,(hkeyValue _).mpr ⟨hwhere,rfl⟩,rfl⟩

theorem resolveEntryUid_iff (h : PlainKeys a entry) :
    resolveEntryUid a (a.keymap data) entry = .ok (some uid) ↔ ResolvesTo a data entry uid := by
  cases hsearch : given a.keySearch with
  | some field =>
    have hfield : field ∈ a.keySearch := (Option.filter_eq_some_iff.mp hsearch).1
    constructor
    · intro huid
      cases hvalue : entry.lookup field with
      | none => simp [resolveEntryUid,Spec.keyValue,hsearch,hvalue] at huid
      | some value =>
        have hplain : PlainKey value := h field (Or.inr (Or.inr hfield)) value hvalue
        obtain ⟨hlast,hne⟩ := (resolveEntryUid_of_search hsearch hvalue hplain).mp huid
        obtain ⟨earlier,previous,later,hdata,hprevious,hother⟩ := (lastSome_uidOf_eq_some_iff hplain).mp hlast
        exact .bySearch hsearch hvalue hdata hprevious hother hne
    · intro hresolves
      cases hresolves with
      | byKey hnone | bySecondary hnone => rw [hsearch] at hnone; cases hnone
      | bySearch hsearch' hvalue hdata hprevious hother hne =>
        obtain rfl := Option.some.inj (hsearch.symm.trans hsearch')
        have hplain := h _ (Or.inr (Or.inr hfield)) _ hvalue
        exact (resolveEntryUid_of_search hsearch hvalue hplain).mpr
          ⟨(lastSome_uidOf_eq_some_iff hplain).mpr ⟨_,_,_,hdata,hprevious,hother⟩,hne⟩
  | none =>
    rw [resolveEntryUid_of_key hsearch h]
    constructor
    · rintro ⟨s,rfl,hkey | ⟨habsent,hsecondary⟩⟩
      · obtain ⟨key,hkey,hvalue⟩ := Option.bind_eq_some_iff.mp hkey
        exact .byKey hsearch hkey hvalue
      · obtain ⟨key,hkey,hvalue⟩ := Option.bind_eq_some_iff.mp hsecondary
        exact .bySecondary hsearch (fun key hkey => by simpa [hkey] using habsent) hkey hvalue
    · intro hresolves
      cases hresolves with
      | byKey _ hkey hvalue => exact ⟨_,rfl,Or.inl (Option.bind_eq_some_iff.mpr ⟨_,hkey,hvalue⟩)⟩
      | bySecondary _ habsent hkey hvalue =>
        refine ⟨_,rfl,Or.inr ⟨?_,Option.bind_eq_some_iff.mpr ⟨_,hkey,hvalue⟩⟩⟩
        cases hkey' : a.key with
        | none => rfl
        | some key => exact habsent key hkey'
      | bySearch hsome => rw [hsearch] at hsome; cases hsome

theorem survives_iff (h : PlainKeys a entry) : Survives a data entry uid ↔
    shouldSkipEntry entry a.only a.skip = false ∧ resolveEntryUid a (a.keymap data) entry = .ok (some uid) := by
  rw [shouldSkipEntry_eq_false_iff,resolveEntryUid_iff h]
  exact ⟨fun hs => ⟨⟨hs.only,hs.skip⟩,hs.uid⟩,fun hs => ⟨hs.1.1,hs.1.2,hs.2⟩⟩

end Rows

section Field
variable {py : Interpreter} {entry : Fields} {val : ApiValueSpec} {x y value : Value}

theorem foldl_eq_some_iff {step : Option Value → List Char → Option Value} (hnone : ∀ name, step none name = none)
    (hdict : ∀ fields name, step (some (.dict fields)) name = fields.lookup (String.ofList name))
    (hother : ∀ x name, isObject x = false → step (some x) name = none) {path : List (List Char)} :
    path.foldl step (some x) = some y ↔ Reaches (path.map String.ofList) x y := by
  have hstuck : ∀ path : List (List Char), path.foldl step none = none := by
    intro path
    induction path with
    | nil => rfl
    | cons name rest ih => rw [List.foldl_cons,hnone,ih]
  induction path generalizing x with
  | nil =>
    rw [List.foldl_nil,Option.some.injEq]
    refine ⟨fun h => h ▸ .here x,fun h => ?_⟩
    cases h
    rfl
  | cons name rest ih =>
    rw [List.foldl_cons,List.map_cons]
    cases hx : isObject x with
    | true =>
      obtain ⟨fields,rfl⟩ : ∃ fields, x = .dict fields := by
        cases x with
        | dict fields => exact ⟨fields,rfl⟩
        | none | bool | int | float | str | list | datetime => cases hx
      rw [hdict]
      cases hlookup : fields.lookup (String.ofList name) with
      | none =>
        rw [hstuck]
        refine ⟨fun h => (by cases h),fun h => ?_⟩
        cases h with
        | inside hname _ => rw [hlookup] at hname; cases hname
      | some z =>
        refine ih.trans ⟨fun h => .inside hlookup h,fun h => ?_⟩
        cases h with
        | inside hname hrest =>
          obtain rfl := Option.some.inj (hlookup.symm.trans hname)
          exact hrest
    | false =>
      rw [hother x name hx,hstuck]
      refine ⟨fun h => (by cases h),fun h => ?_⟩
      cases h
      cases hx

theorem resolveSource_eq_some_iff {path : String} :
    resolveSource entry path = some x ↔ Reaches (pathNames path) (.dict entry) x := by
  unfold resolveSource pathNames
  split
  · apply foldl_eq_some_iff
    · intro name
      rfl
    · intro fields name
      rfl
    · intro x name hx
      cases x with
      | dict fields => cases hx
      | none | bool | int | float | str | list | datetime => rfl
  · rename_i hslash
    rw [List.splitOn_eq_singleton hslash,List.map_singleton,String.ofList_toList]
    refine ⟨fun h => .inside h (.here x),fun h => ?_⟩
    cases h with
    | inside hname hrest =>
      cases hrest
      exact hname

theorem exists_asBool_iff : (∃ b, AsBool py x b) ↔ Coercible py x := by
  constructor
  · rintro ⟨b,h⟩
    cases h with
    | bool => trivial
    | yes h => exact Or.inl h
    | no h => exact Or.inr h
  · intro h
    cases x with
    | bool b => exact ⟨b,.bool b⟩
    | str s => exact h.elim (fun h => ⟨true,.yes h⟩) (fun h => ⟨false,.no h⟩)
    | none | int | float | list | dict | datetime => exact absurd h id

theorem coerceBool_of_asBool {b : Bool} (h : AsBool py x b) (default : Value) : coerceBool py x default = .bool b := by
  cases h with
  | bool => rfl
  | yes h => simp [coerceBool,h]
  | no h =>
    have hdisjoint : ∀ s ∈ boolFalseValues, s ∉ boolTrueValues := by decide
    simp [coerceBool,h,hdisjoint _ h]

/-- A reversed boolean field with a value that is no boolean: the parser reverses the default once more. -/
def Misread (py : Interpreter) (entry : Fields) (val : ApiValueSpec) : Prop :=
  val.isBool = true ∧ val.reversed = true ∧ ∃ x, resolveSource entry val.path = some x ∧ ¬ Coercible py x

theorem reversible_iff : Reversible py entry val ↔ (Misread py entry val → Converts val) := by
  unfold Reversible Misread
  simp only [← resolveSource_eq_some_iff,exists_asBool_iff]
  constructor
  · rintro h ⟨hbool,hrev,x,hx,hn⟩
    by_contra hc
    exact hn (h hc hbool hrev x hx)
  · intro h hc hbool hrev x hx
    by_contra hn
    exact hc (h ⟨hbool,hrev,x,hx,hn⟩)

theorem exists_readsAs (py : Interpreter) (entry : Fields) (val : ApiValueSpec) : ∃ x, ReadsAs py entry val x := by
  by_cases hmissing : ∀ x, Reaches (pathNames val.path) (.dict entry) x → x = .none
  · exact ⟨_,.missing hmissing⟩
  · push Not at hmissing
    obtain ⟨x,hx,hne⟩ := hmissing
    cases hbool : val.isBool with
    | false => exact ⟨_,.value hbool hx hne⟩
    | true =>
      by_cases hb : ∃ b, AsBool py x b
      · obtain ⟨b,hb⟩ := hb
        exact ⟨_,.bool hbool hx hb⟩
      · exact ⟨_,.noBool hbool hx (fun b h => hb ⟨b,h⟩)⟩

theorem eq_of_readsAs (h : ReadsAs py entry val x) (hread : ¬ Misread py entry val) : x = readValue py entry val := by
  cases h with
  | missing h =>
    have hmissing : Missing entry val := by
      unfold Missing
      cases hx : resolveSource entry val.path with
      | none => exact Or.inl rfl
      | some x => rw [h x (resolveSource_eq_some_iff.mp hx)]; exact Or.inr rfl
    rw [readValue_of_missing hmissing (fun hn => hread ⟨hn.1,hn.2.1,_,hn.2.2,id⟩)]
  | value hbool h hx =>
    rename_i y
    rw [← resolveSource_eq_some_iff] at h
    unfold readValue fromEntry
    rw [h,hbool]
    cases y with
    | none => exact absurd rfl hx
    | bool | int | float | str | list | dict | datetime => rfl
  | bool hbool h hb =>
    rw [← resolveSource_eq_some_iff] at h
    simp only [readValue,hbool,if_true,fromEntryBool,h,coerceBool_of_asBool hb,Value.truthy]
    cases val.reversed <;> simp
  | noBool hbool h hb =>
    rw [← resolveSource_eq_some_iff] at h
    have hn : ¬ Coercible py _ := fun hc => (exists_asBool_iff.mpr hc).elim hb
    have hrev : val.reversed = false := by
      by_contra hrev
      exact hread ⟨hbool,by simpa using hrev,_,h,hn⟩
    rw [readValue_of_not_coercible hbool h hn,hrev,ApiValueSpec.specDefault,hbool]
    rfl

theorem readsAs_iff (hread : ¬ Misread py entry val) : ReadsAs py entry val x ↔ x = readValue py entry val := by
  refine ⟨fun h => eq_of_readsAs h hread,fun h => ?_⟩
  obtain ⟨y,hy⟩ := exists_readsAs py entry val
  rw [h,← eq_of_readsAs hy hread]
  exact hy

theorem readsAs_iff_of_misread (h : Misread py entry val) :
    ∃ b, readValue py entry val = .bool (!b) ∧ ∀ x, ReadsAs py entry val x ↔ x = .bool b := by
  obtain ⟨hbool,hrev,y,hy,hn⟩ := h
  have hdefault : ∃ b, val.specDefault = .bool b ∧ readValue py entry val = .bool (!b) := by
    refine ⟨!(val.default.getD (.bool false)).truthy,?_,?_⟩
    · simp [ApiValueSpec.specDefault,hbool,ApiValueSpec.boolDefault,hrev]
    · simp [readValue_of_not_coercible hbool hy hn,hrev,ApiValueSpec.boolDefault,Value.truthy]
  obtain ⟨b,hb,hread⟩ := hdefault
  refine ⟨b,hread,fun x => ⟨fun hx => ?_,fun hx => ?_⟩⟩
  · cases hx with
    | missing => exact hb
    | value hstr => rw [hbool] at hstr; cases hstr
    | bool _ h hasbool =>
      obtain rfl := Option.some.inj (hy.symm.trans (resolveSource_eq_some_iff.mpr h))
      exact absurd (exists_asBool_iff.mp ⟨_,hasbool⟩) hn
    | noBool => exact hb
  · rw [hx,← hb]
    exact .noBool hbool (resolveSource_eq_some_iff.mp hy) (fun b h => hn (exists_asBool_iff.mp ⟨b,h⟩))

theorem inTime_iff : InTime py entry val ↔ Holdable py entry val := by
  unfold InTime Holdable
  by_cases h : Misread py entry val
  · obtain ⟨b,hread,hreads⟩ := readsAs_iff_of_misread h
    simp [hread,hreads]
  · simp only [readsAs_iff h,eq_comm]

theorem becomes_of_convertValue (h : convertValue py val.convert x = .ok value) : Becomes py val x value := by
  by_cases hstamp : val.convert = some "utc_from_timestamp"
  · simp only [convertValue,hstamp,if_true] at h
    unfold convertTimestamp at h
    split at h
    · rename_i time
      split_ifs at h with hpos hsecond hlast
      · rw [← Except.ok.inj h]
        exact .noTimestamp hstamp (fun t ht heq => by cases heq; omega)
      · have htime : time * 1000000 = instant time := by rw [instant,if_pos hsecond]
        rw [← Except.ok.inj h,htime]
        exact .timestamp hstamp (by omega)
      · have htime : (microsecondsOfMillis time.toNat : ℤ) = instant time := by rw [instant,if_neg hsecond]
        rw [← Except.ok.inj h,htime]
        exact .timestamp hstamp (by omega)
    · rename_i hother
      rw [← Except.ok.inj h]
      exact .noTimestamp hstamp (fun time _ => hother time)
  · by_cases hdate : val.convert = some "human_date_to_utc"
    · rw [show convertValue py val.convert x = .ok (humanDateToUtc py x) by simp [convertValue,hdate]] at h
      rw [← Except.ok.inj h]
      unfold humanDateToUtc
      split
      · rename_i s
        split
        · rename_i time htime
          exact .date hdate htime
        · rename_i hnone
          exact .noDate hdate (fun s' time hs => by cases hs; simp [hnone])
      · rename_i hother
        exact .noDate hdate (fun s time hs => absurd hs (hother s))
    · have hc : ¬ Converts val := fun hc => hc.elim hstamp hdate
      rw [convertValue_of_not_converts hc] at h
      rw [← Except.ok.inj h]
      exact .kept x hc

/-- What the parser writes is the value of the field, but for a reversed boolean that is none. -/
theorem isFieldOf_iff (h : fieldValue py entry val = .ok value) : IsFieldOf py entry val value ↔ Reversible py entry val := by
  rw [reversible_iff]
  unfold IsFieldOf
  unfold fieldValue at h
  by_cases hread : Misread py entry val
  · obtain ⟨b,hb,hreads⟩ := readsAs_iff_of_misread hread
    rw [hb] at h
    simp only [hreads,exists_eq_left,hread,true_implies]
    constructor
    · intro hbecomes
      by_contra hc
      rw [convertValue_of_not_converts hc] at h
      cases hbecomes with
      | noTimestamp hstamp => exact hc (Or.inl hstamp)
      | noDate hdate => exact hc (Or.inr hdate)
      | kept => simp at h
    · intro hc
      obtain rfl : Value.none = value := by
        rcases hc with hc | hc
        · simpa [convertValue,hc,convertTimestamp] using h
        · simpa [convertValue,hc,humanDateToUtc] using h
      rcases hc with hc | hc
      · exact .noTimestamp hc (fun time _ heq => by cases heq)
      · exact .noDate hc (fun s time heq => by cases heq)
  · refine iff_of_true ⟨_,(readsAs_iff hread).mpr rfl,becomes_of_convertValue h⟩ (fun hmis => absurd hmis hread)

end Field
end TruenasCE.ApiParser
