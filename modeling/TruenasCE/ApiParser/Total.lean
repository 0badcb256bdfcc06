import TruenasCE.ApiParser.Raises

/-! # Which sources the parser takes

`parse_api` returns, skips the rows it cannot key and falls back for the fields it cannot convert,
exactly if no row it keeps has a list or an object as its key, a time behind the year 9999, a
value that is no boolean in a reversed boolean field or a previous entry that cannot be written into.
-/
namespace TruenasCE.ApiParser
open Library

def IsSource : Value → Prop
  | .none | .str _ | .dict _ | .list _ => True
  | _ => False

def rowsOf : Value → List Value
  | .dict fields => [.dict fields]
  | .list rows => rows
  | _ => []

def Coercible (py : Interpreter) : Value → Prop
  | .bool _ => True
  | .str s => py.normalize s ∈ boolTrueValues ∨ py.normalize s ∈ boolFalseValues
  | _ => False

/-- A time is read as one or as null, and what is no boolean as the default or as null. -/
def FallsBack (py : Interpreter) (entry : Fields) (val : ApiValueSpec) : Prop :=
  ∃ value, fieldValue py entry val = .ok value ∧ (Converts val → value = .none ∨ ∃ time, value = .datetime time) ∧
    (¬ Converts val → val.isBool = true → ∀ x, resolveSource entry val.path = some x → ¬ Coercible py x →
      value = val.specDefault ∨ value = .none)

/-- The time can be held, and a reversed boolean can be read. -/
def Convertible (py : Interpreter) (entry : Fields) (val : ApiValueSpec) : Prop :=
  Holdable py entry val ∧ (¬ Converts val → val.isBool = true → val.reversed = true →
    ∀ x, resolveSource entry val.path = some x → Coercible py x)

section Fields
variable {py : Interpreter} {entry : Fields} {val : ApiValueSpec}

theorem coerceBool_of_not_coercible {x default : Value} (h : ¬ Coercible py x) : coerceBool py x default = default := by
  unfold coerceBool
  split
  · rename_i s
    rw [Coercible,not_or] at h
    rw [if_neg h.1,if_neg h.2]
  · exact absurd trivial h
  · rfl

theorem readValue_of_not_coercible (hbool : val.isBool = true) {x : Value} (hx : resolveSource entry val.path = some x)
    (hn : ¬ Coercible py x) :
    readValue py entry val = if val.reversed then .bool (!val.boolDefault.truthy) else val.boolDefault := by
  simp [readValue,hbool,fromEntryBool,hx,coerceBool_of_not_coercible hn]

theorem fallsBack_iff : FallsBack py entry val ↔ Convertible py entry val := by
  constructor
  · rintro ⟨value,hvalue,_,hbool⟩
    refine ⟨fieldValue_ok_iff.mp ⟨value,hvalue⟩,fun hc hb hr x hx => ?_⟩
    by_contra hn
    have hread := readValue_of_not_coercible hb hx hn
    rw [fieldValue,convertValue_of_not_converts hc,hread,if_pos hr] at hvalue
    obtain rfl := Except.ok.inj hvalue
    have hdefault := hbool hc hb x hx hn
    simp [ApiValueSpec.specDefault,hb,ApiValueSpec.boolDefault,hr,Value.truthy] at hdefault
  · rintro ⟨hold,hbool⟩
    obtain ⟨value,hvalue⟩ := fieldValue_ok_iff.mpr hold
    refine ⟨value,hvalue,fun hc => none_or_datetime_of_converts hc hvalue,fun hc hb x hx hn => Or.inl ?_⟩
    have hr : val.reversed = false := by
      by_contra hr
      exact hn (hbool hc hb (by simpa using hr) x hx)
    have hread := readValue_of_not_coercible hb hx hn
    rw [fieldValue,convertValue_of_not_converts hc,hread,hr] at hvalue
    rw [← Except.ok.inj hvalue,ApiValueSpec.specDefault,hb]
    rfl

end Fields

/-- The call returns, a row without a uid changes nothing, and the fields of the others fall back. -/
structure Total (py : Interpreter) (a : Spec) (data : Rows) (source : Value) : Prop where
  returns : ∃ result, parseApi py a data source = .ok result
  skips : ∀ entry, .dict entry ∈ rowsOf source → (∀ uid, resolveEntryUid a (a.keymap data) entry ≠ .ok (some uid)) →
    ∀ p, applySourceEntry py a (a.keymap data) p (.dict entry) = .ok { p with anyValidEntry := true }
  fields : ∀ entry, .dict entry ∈ rowsOf source → shouldSkipEntry entry a.only a.skip = false →
    ∀ uid, resolveEntryUid a (a.keymap data) entry = .ok (some uid) → ∀ val ∈ a.vals, FallsBack py entry val

/-- The rows that pass the filters have hashable keys, and those with a uid convertible fields and no previous
entry that is to be written into though it is no object. -/
structure Parsable (py : Interpreter) (a : Spec) (data : Rows) (source : Value) : Prop where
  hashable : ∀ entry, .dict entry ∈ rowsOf source → shouldSkipEntry entry a.only a.skip = false →
    ∀ value, a.keyValue (a.keymap data) entry = some value → value.key?.isSome = true
  objects : ∀ entry, .dict entry ∈ rowsOf source → shouldSkipEntry entry a.only a.skip = false →
    ∀ uid, resolveEntryUid a (a.keymap data) entry = .ok (some uid) → Takes a (data.lookup uid)
  fields : ∀ entry, .dict entry ∈ rowsOf source → shouldSkipEntry entry a.only a.skip = false →
    ∀ uid, resolveEntryUid a (a.keymap data) entry = .ok (some uid) → ∀ val ∈ a.vals, Convertible py entry val

/-- The same without a key: every row that passes the filters is read into the one object. -/
structure SingleTotal (py : Interpreter) (a : Spec) (data : Fields) (source : Value) : Prop where
  returns : ∃ result, parseApiSingle py a data source = .ok result
  fields : ∀ entry, .dict entry ∈ rowsOf source → shouldSkipEntry entry a.only a.skip = false →
    ∀ val ∈ a.vals, FallsBack py entry val

section Sources
variable {py : Interpreter} {a : Spec} {source : Value}

theorem resolveEntryUid_ok_iff {keymap : Mapping Key Key} {entry : Fields} :
    (∃ uid, resolveEntryUid a keymap entry = .ok uid) ↔
      ∀ value, a.keyValue keymap entry = some value → value.key?.isSome = true := by
  unfold resolveEntryUid
  cases a.keyValue keymap entry with
  | none => simp
  | some value =>
    cases hk : value.key? with
    | none => simp [hk]
    | some k =>
      simp only [Option.some.injEq,forall_eq',hk,Option.isSome_some,iff_true]
      split
      · exact ⟨_,rfl⟩
      · exact ⟨_,rfl⟩

theorem sourceRows_of_isSource (h : IsSource source) :
    ∃ rows, sourceRows source = .ok rows ∧ rowsOf source = rows.getD [] := by
  cases source with
  | none | str | dict | list => exact ⟨_,rfl,rfl⟩
  | bool | int | float | datetime => exact absurd h id

theorem parseApi_ok_iff (hs : a.Supported) (h : IsSource source) (data : Rows) :
    (∃ result, parseApi py a data source = .ok result) ↔
      ∀ row ∈ rowsOf source, RowParses py a (a.keymap data) data row := by
  obtain ⟨rows,hrows,hrowsOf⟩ := sourceRows_of_isSource h
  unfold parseApi
  rw [hrows,hrowsOf]
  cases rows with
  | none => simp
  | some rows =>
    cases rows with
    | nil => simp
    | cons row rest =>
      simp only
      rw [exists_map_ok_iff,applySourceEntries_ok_iff hs,Option.getD_some]

theorem applyAllToSingle_ok_iff (hs : a.Supported) (data : Fields) (rows : List Value) :
    (∃ result, applyAllToSingle py a data rows = .ok result) ↔
      ∀ entry, .dict entry ∈ rows → shouldSkipEntry entry a.only a.skip = false →
        ∀ val ∈ a.vals, Holdable py entry val := by
  induction rows generalizing data with
  | nil => simp [applyAllToSingle]
  | cons row rest ih =>
    have hone : (∃ result, applyToSingle py a data row = .ok result) ↔
        ∀ entry, row = .dict entry → shouldSkipEntry entry a.only a.skip = false →
          ∀ val ∈ a.vals, Holdable py entry val := by
      unfold applyToSingle
      split
      · rename_i entry
        simp only [Value.dict.injEq,forall_eq']
        split
        · rename_i hskip
          simp [hskip]
        · rename_i hskip
          rw [applyEntry_ok_iff hs]
          simp [hskip]
      · rename_i hrow
        simp only [Except.ok.injEq,exists_eq',true_iff]
        exact fun entry hentry => absurd hentry (hrow entry)
    have hsplit : (∃ result, applyAllToSingle py a data (row :: rest) = .ok result) ↔
        (∃ result, applyToSingle py a data row = .ok result) ∧
          ∀ entry, .dict entry ∈ rest → shouldSkipEntry entry a.only a.skip = false →
            ∀ val ∈ a.vals, Holdable py entry val := by
      rw [applyAllToSingle]
      cases applyToSingle py a data row with
      | error e => simp
      | ok result => simp [ih]
    rw [hsplit,hone]
    constructor
    · rintro ⟨hrow,hrest⟩ entry hentry
      rcases List.mem_cons.mp hentry with heq | hmem
      · exact hrow entry heq.symm
      · exact hrest entry hmem
    · exact fun hall => ⟨fun entry hentry => hall entry (by simp [hentry]),fun entry hentry =>
        hall entry (by simp [hentry])⟩

theorem keyed_total_iff (hs : a.Supported) (h : IsSource source) (data : Rows) :
    Total py a data source ↔ Parsable py a data source := by
  constructor
  · rintro ⟨hreturns,_,hfields⟩
    rw [parseApi_ok_iff hs h] at hreturns
    refine ⟨fun entry hmem hskip => ?_,fun entry hmem hskip uid huid => ?_,fun entry hmem hskip uid huid val hval => ?_⟩
    · exact resolveEntryUid_ok_iff.mp (hreturns _ hmem entry rfl hskip).1
    · exact ((hreturns _ hmem entry rfl hskip).2 uid huid).1
    · exact fallsBack_iff.mp (hfields entry hmem hskip uid huid val hval)
  · rintro ⟨hhash,hobjects,hfields⟩
    refine ⟨(parseApi_ok_iff hs h data).mpr ?_,fun entry hmem hnone p =>
      ?_,fun entry hmem hskip uid huid val hval => ?_⟩
    · rintro row hmem entry rfl hskip
      exact ⟨resolveEntryUid_ok_iff.mpr (hhash entry hmem hskip),
        fun uid huid => ⟨hobjects entry hmem hskip uid huid,
          fun val hval => (hfields entry hmem hskip uid huid val hval).1⟩⟩
    · rw [applySourceEntry_dict]
      by_cases hskip : shouldSkipEntry entry a.only a.skip = true
      · rw [if_pos hskip]
      · rw [if_neg hskip]
        obtain ⟨uid,huid⟩ := resolveEntryUid_ok_iff.mpr (hhash entry hmem (by simpa using hskip))
        cases uid with
        | none => rw [huid]
        | some uid => exact absurd huid (hnone uid)
    · exact fallsBack_iff.mpr (hfields entry hmem hskip uid huid val hval)

theorem single_total_iff (hs : a.Supported) (h : IsSource source) (data : Fields) :
    SingleTotal py a data source ↔
      ∀ entry, .dict entry ∈ rowsOf source → shouldSkipEntry entry a.only a.skip = false →
        ∀ val ∈ a.vals, Convertible py entry val := by
  have hreturns : (∃ result, parseApiSingle py a data source = .ok result) ↔
      ∀ entry, .dict entry ∈ rowsOf source → shouldSkipEntry entry a.only a.skip = false →
        ∀ val ∈ a.vals, Holdable py entry val := by
    obtain ⟨rows,hrows,hrowsOf⟩ := sourceRows_of_isSource h
    unfold parseApiSingle
    rw [hrows,hrowsOf]
    cases rows with
    | none => simp
    | some rows =>
      cases rows with
      | nil => simp
      | cons row rest => exact applyAllToSingle_ok_iff hs data (row :: rest)
  constructor
  · rintro ⟨_,hfields⟩ entry hmem hskip val hval
    exact fallsBack_iff.mp (hfields entry hmem hskip val hval)
  · intro hall
    exact ⟨hreturns.mpr (fun entry hmem hskip val hval => (hall entry hmem hskip val hval).1),
      fun entry hmem hskip val hval => fallsBack_iff.mpr (hall entry hmem hskip val hval)⟩

/-- With a key and without one, the parser takes a source exactly if the rows it keeps are convertible
and can be keyed. -/
theorem total_iff (py : Interpreter) (a : Spec) (hs : a.Supported) (source : Value) (h : IsSource source) :
    (a.keyed = true → ∀ data, Total py a data source ↔ Parsable py a data source) ∧
      (a.keyed = false → ∀ data, SingleTotal py a data source ↔
        ∀ entry, .dict entry ∈ rowsOf source → shouldSkipEntry entry a.only a.skip = false →
          ∀ val ∈ a.vals, Convertible py entry val) :=
  ⟨fun _ data => keyed_total_iff hs h data,fun _ data => single_total_iff hs h data⟩

end Sources

def byId : Spec := { key := some "id", vals := [{ name := "ended", convert := some "utc_from_timestamp" }] }

theorem supported_byId : byId.Supported := fun _ hrule => by cases hrule

/-- A row without a key and a null that is to be a time. -/
theorem total_iff_byId : (byId.keyed = true → ∀ data,
    Total plain byId data (.list [.dict [("id",.none)],.dict [("id",.str "tank"),("ended",.none)]]) ↔
      Parsable plain byId data (.list [.dict [("id",.none)],.dict [("id",.str "tank"),("ended",.none)]])) ∧
    (byId.keyed = false → ∀ data,
      SingleTotal plain byId data (.list [.dict [("id",.none)],.dict [("id",.str "tank"),("ended",.none)]]) ↔
        ∀ entry, .dict entry ∈ rowsOf (.list [.dict [("id",.none)],.dict [("id",.str "tank"),("ended",.none)]]) →
          shouldSkipEntry entry byId.only byId.skip = false → ∀ val ∈ byId.vals, Convertible plain entry val) :=
  total_iff plain byId supported_byId _ trivial

/-- A number in place of the previous entry ends the poll. -/
example : parseApi plain byId [(.str "tank",.int 5)] (.list [.dict [("id",.str "tank")]]) = .error .notObject := rfl

/-- A list under the key ends the poll. -/
theorem not_total_of_list : ¬ ∀ py a source, a.Supported → IsSource source → a.keyed = true →
    ∀ data, Total py a data source := by
  intro hall
  obtain ⟨result,hresult⟩ :=
    (hall plain byId (.list [.dict [("id",.list [])]]) supported_byId trivial (by decide) []).returns
  cases hresult

end TruenasCE.ApiParser
