import TruenasCE.ApiParser.Surviving

/-! # What a keyed source makes of the entries

The keys and the fields of the result of `parse_api`, told by the rows that survive the filters
and resolve to a uid.
-/
namespace TruenasCE.ApiParser
open Library

def lastSpec (vals : List ApiValueSpec) (name : String) : Option ApiValueSpec :=
  lastSome (fun val => if val.name = name then some val else none) vals

/-- The default of the first specification of a field in `ensure_vals`. -/
def ensured (ensureVals : List ApiValueSpec) (name : String) : Option Value :=
  (ensureVals.find? (fun val => val.name = name)).map (fun val => val.default.getD (.str ""))

/-- A field of the specification has a value that its last specification allows; any other keeps its value or
has an ensured default. -/
def HasField (allowed : ApiValueSpec → Value → Prop) (a : Spec) (previous filled : Fields) (name : String) : Prop :=
  match lastSpec a.vals name with
  | some val => ∃ value, allowed val value ∧ filled.lookup name = some value
  | none => filled.lookup name = (previous.lookup name).or (ensured a.ensureVals name)

/-- An object is filled field by field, and any other entry stays as it is. -/
def Filled (allowed : ApiValueSpec → Value → Prop) (a : Spec) (previous filled : Value) : Prop :=
  match previous with
  | .dict previous => ∃ fields, filled = .dict fields ∧ ∀ name, HasField allowed a previous fields name
  | other => filled = other

def Writes (py : Interpreter) (entry : Fields) (val : ApiValueSpec) (value : Value) : Prop :=
  fieldValue py entry val = .ok value

section Row
variable {py : Interpreter} {a : Spec} {target previous entry filled middle : Fields} {name : String}

theorem lookup_fillVals (name : String) {vals : List ApiValueSpec} (h : fillVals py target entry vals = .ok filled) :
    match lastSpec vals name with
    | some val => ∃ value, fieldValue py entry val = .ok value ∧ filled.lookup name = some value
    | none => filled.lookup name = target.lookup name := by
  induction vals generalizing target with
  | nil =>
    obtain rfl : target = filled := Except.ok.inj h
    rfl
  | cons val rest ih =>
    unfold fillVals setVal at h
    cases hvalue : fieldValue py entry val with
    | error e => simp [hvalue,Except.map] at h
    | ok value =>
      simp only [hvalue,Except.map] at h
      have hrest := ih h
      unfold lastSpec at hrest ⊢
      rw [lastSome]
      cases hlast : lastSome (fun val => if val.name = name then some val else none) rest with
      | some last =>
        rw [hlast] at hrest
        exact hrest
      | none =>
        rw [hlast] at hrest
        simp only at hrest
        rw [Option.none_or]
        split
        · rename_i last hif
          split at hif
          · rename_i hname
            obtain rfl := Option.some.inj hif
            exact ⟨value,hvalue,by rw [hrest,← hname,Mapping.lookup_set_self]⟩
          · cases hif
        · rename_i hif
          split at hif
          · cases hif
          · rename_i hname
            rw [hrest,Mapping.lookup_set_of_ne (Ne.symm hname)]

theorem lookup_fillEnsureVals (ensureVals : List ApiValueSpec) :
    (fillEnsureVals target ensureVals).lookup name = (target.lookup name).or (ensured ensureVals name) := by
  induction ensureVals generalizing target with
  | nil => simp [fillEnsureVals,ensured]
  | cons val rest ih =>
    unfold fillEnsureVals at ih ⊢
    rw [List.foldl_cons,ih,Mapping.lookup_setDefault]
    unfold ensured
    by_cases hname : name = val.name
    · subst hname
      cases target.lookup val.name with
      | none => simp
      | some value => simp
    · simp [hname,Ne.symm hname]

theorem hasField_of_applyEntry (hproc : a.valProc = []) (h : applyEntry py a previous entry = .ok filled) :
    HasField (Writes py entry) a previous filled name := by
  unfold applyEntry at h
  cases hfill : fillVals py previous entry a.vals with
  | error e => simp [hfill] at h
  | ok middle =>
    rw [hfill,hproc] at h
    obtain rfl := Except.ok.inj h
    have hvals := lookup_fillVals name hfill
    unfold HasField
    split
    · rename_i val hlast
      rw [hlast] at hvals
      obtain ⟨value,hvalue,hlookup⟩ := hvals
      exact ⟨value,hvalue,by rw [lookup_fillEnsureVals,hlookup,Option.some_or]⟩
    · rename_i hlast
      rw [hlast] at hvals
      rw [lookup_fillEnsureVals,hvals]

/-- A field that no specification names is kept by `parse_api` without a key. -/
theorem lookup_parseApiSingle {vals : List ApiValueSpec} {data result : Fields} {source : Value}
    (hname : ∀ val ∈ vals, val.name ≠ name) (h : parseApiSingle py { vals := vals } data source = .ok result) :
    result.lookup name = data.lookup name := by
  have hlast : lastSpec vals name = none := lastSome_eq_none_iff.mpr (fun val hval => if_neg (hname val hval))
  have hrow : ∀ {data result : Fields} {row : Value}, applyToSingle py { vals := vals } data row = .ok result →
      result.lookup name = data.lookup name := by
    intro data result row hrow
    unfold applyToSingle at hrow
    split at hrow
    · split at hrow
      · rw [← Except.ok.inj hrow]
      · have hfield : HasField (Writes py _) _ data result name := hasField_of_applyEntry rfl hrow
        rw [HasField,hlast] at hfield
        rw [hfield]
        exact Option.or_none
    · rw [← Except.ok.inj hrow]
  have hdefaults : (fillDefaults data vals).lookup name = data.lookup name := by
    unfold fillDefaults
    clear hlast hrow h
    induction vals generalizing data with
    | nil => rfl
    | cons val rest ih =>
      obtain ⟨hval,hrest⟩ := List.forall_mem_cons.mp hname
      rw [List.foldl_cons,ih hrest,Mapping.lookup_setDefault,if_neg (Ne.symm hval)]
  have hrows : ∀ {rows : List Value} {data : Fields}, applyAllToSingle py { vals := vals } data rows = .ok result →
      result.lookup name = data.lookup name := by
    intro rows
    induction rows with
    | nil =>
      intro data hnil
      rw [← Except.ok.inj hnil]
    | cons row rest ih =>
      intro data hcons
      unfold applyAllToSingle at hcons
      cases hone : applyToSingle py { vals := vals } data row with
      | error e => simp [hone] at hcons
      | ok middle =>
        rw [hone] at hcons
        rw [ih hcons,hrow hone]
  unfold parseApiSingle at h
  split at h
  · cases h
  · rw [← Except.ok.inj h,hdefaults]
  · rw [← Except.ok.inj h,hdefaults]
  · exact hrows h

/-- A later row of the same entry hides what it reads itself and keeps the rest. -/
theorem HasField.trans {earlier later : ApiValueSpec → Value → Prop} (h : HasField earlier a previous middle name)
    (h' : HasField later a middle filled name) : HasField later a previous filled name := by
  unfold HasField at h h' ⊢
  split
  · rename_i hlast
    rw [hlast] at h'
    exact h'
  · rename_i hlast
    rw [hlast] at h h'
    rw [h',h]
    cases previous.lookup name <;> cases ensured a.ensureVals name <;> rfl

end Row

section Entry
variable {py : Interpreter} {a : Spec} {previous middle filled : Value} {entry : Fields}

theorem filled_of_applyEntryTo (hproc : a.valProc = []) (h : applyEntryTo py a previous entry = .ok filled) :
    Filled (Writes py entry) a previous filled := by
  cases previous with
  | dict target =>
    simp only [applyEntryTo] at h
    cases happly : applyEntry py a target entry with
    | error e => simp [happly,Except.map] at h
    | ok fields =>
      simp only [happly,Except.map,Except.ok.injEq] at h
      exact ⟨fields,h.symm,fun name => hasField_of_applyEntry hproc happly⟩
  | none | bool | int | float | str | list | datetime =>
    simp only [applyEntryTo] at h
    obtain ⟨u,-,hu⟩ := of_map_ok h
    exact hu.symm

theorem Filled.trans {earlier later : ApiValueSpec → Value → Prop} (h : Filled earlier a previous middle)
    (h' : Filled later a middle filled) : Filled later a previous filled := by
  cases previous with
  | dict target =>
    obtain ⟨fields,rfl,hfields⟩ := h
    obtain ⟨fields',rfl,hfields'⟩ := h'
    exact ⟨fields',rfl,fun name => (hfields name).trans (hfields' name)⟩
  | none | bool | int | float | str | list | datetime =>
    obtain rfl : middle = _ := h
    exact h'

theorem filled_iff (h : Filled (Writes py entry) a previous filled) :
    Filled (IsFieldOf py entry) a previous filled ↔
      (isObject previous = true → ∀ name val, lastSpec a.vals name = some val → Reversible py entry val) := by
  cases previous with
  | dict target =>
    obtain ⟨fields,rfl,hfields⟩ := h
    simp only [isObject,true_implies]
    constructor
    · rintro ⟨_,hdict,hall⟩ name val hlast
      obtain rfl := Value.dict.inj hdict
      have hwritten := hfields name
      have hname := hall name
      unfold HasField at hwritten hname
      rw [hlast] at hwritten hname
      obtain ⟨value,hvalue,hlookup⟩ := hwritten
      obtain ⟨value',hvalue',hlookup'⟩ := hname
      obtain rfl := Option.some.inj (hlookup.symm.trans hlookup')
      exact (isFieldOf_iff hvalue).mp hvalue'
    · refine fun hall => ⟨fields,rfl,fun name => ?_⟩
      have hwritten := hfields name
      unfold HasField at hwritten ⊢
      split
      · rename_i val hlast
        rw [hlast] at hwritten
        obtain ⟨value,hvalue,hlookup⟩ := hwritten
        exact ⟨value,(isFieldOf_iff hvalue).mpr (hall name val hlast),hlookup⟩
      · rename_i hlast
        rw [hlast] at hwritten
        exact hwritten
  | none | bool | int | float | str | list | datetime =>
    obtain rfl : filled = _ := h
    exact iff_of_true rfl (fun hobject => by cases hobject)

end Entry

def survivor (a : Spec) (keymap : Mapping Key Key) : Value → Option (Key × Fields)
  | .dict entry =>
    if shouldSkipEntry entry a.only a.skip then none
    else
      match resolveEntryUid a keymap entry with
      | .ok (some uid) => some (uid,entry)
      | _ => none
  | _ => none

def lastRow (survivors : List (Key × Fields)) (uid : Key) : Option Fields :=
  lastSome (fun row => if row.1 = uid then some row.2 else none) survivors

/-- What the rows make of the entries. -/
structure Applied (py : Interpreter) (a : Spec) (survivors : List (Key × Fields)) (p q : Progress) : Prop where
  seen : ∀ uid, uid ∈ q.seenUids ↔ uid ∈ p.seenUids ∨ uid ∈ survivors.map Prod.fst
  kept : ∀ uid, uid ∉ survivors.map Prod.fst → q.data.lookup uid = p.data.lookup uid
  filled : ∀ uid entry, lastRow survivors uid = some entry → ∃ filled, q.data.lookup uid = some filled ∧
    Filled (Writes py entry) a ((p.data.lookup uid).getD (.dict [])) filled

section Rows
variable {py : Interpreter} {a : Spec} {keymap : Mapping Key Key} {p q : Progress} {row : Value} {rows : List Value}
variable {survivors : List (Key × Fields)} {uid : Key}

theorem lastRow_isSome_iff : (lastRow survivors uid).isSome = true ↔ uid ∈ survivors.map Prod.fst := by
  rw [← not_iff_not]
  simp only [Bool.not_eq_true,Option.isSome_eq_false_iff,Option.isNone_iff_eq_none,lastRow,lastSome_eq_none_iff]
  simp only [ite_eq_right_iff,reduceCtorEq,imp_false,List.mem_map,not_exists,not_and]

theorem Applied.nil : Applied py a [] p p where
  seen := by simp
  kept _ _ := rfl
  filled := by simp [lastRow,lastSome]

theorem Applied.cons {entry : Fields} {target : Value} (hproc : a.valProc = [])
    (htarget : applyEntryTo py a ((p.data.lookup uid).getD (.dict [])) entry = .ok target)
    (h : Applied py a survivors ⟨Mapping.set p.data uid target,uid :: p.seenUids,true⟩ q) :
    Applied py a ((uid,entry) :: survivors) p q where
  seen k := by
    rw [h.seen]
    simp only [List.mem_cons,List.map_cons]
    tauto
  kept k hk := by
    simp only [List.map_cons,List.mem_cons,not_or] at hk
    rw [h.kept k hk.2]
    exact Mapping.lookup_set_of_ne hk.1
  filled k e hlast := by
    have hfirst : Filled (Writes py entry) a ((p.data.lookup uid).getD (.dict [])) target :=
      filled_of_applyEntryTo hproc htarget
    unfold lastRow at hlast
    rw [lastSome] at hlast
    cases hrest : lastSome (fun row : Key × Fields => if row.1 = k then some row.2 else none) survivors with
    | some e' =>
      rw [hrest,Option.some_or] at hlast
      obtain rfl := Option.some.inj hlast
      obtain ⟨filled,hfilled,hfields⟩ := h.filled k e' hrest
      refine ⟨filled,hfilled,?_⟩
      by_cases hk : k = uid
      · subst hk
        simp only [Mapping.lookup_set_self,Option.getD_some] at hfields
        exact hfirst.trans hfields
      · simp only [Mapping.lookup_set_of_ne hk] at hfields
        exact hfields
    | none =>
      rw [hrest,Option.none_or] at hlast
      split at hlast
      · rename_i hk
        obtain rfl := Option.some.inj hlast
        obtain rfl : uid = k := hk
        have hnot : uid ∉ survivors.map Prod.fst := by
          rw [← lastRow_isSome_iff]
          simp [lastRow,hrest]
        refine ⟨target,?_,hfirst⟩
        rw [h.kept uid hnot]
        exact Mapping.lookup_set_self
      · cases hlast

theorem Applied.skip (h : Applied py a survivors { p with anyValidEntry := true } q) : Applied py a survivors p q where
  seen := h.seen
  kept := h.kept
  filled := h.filled

theorem applied_of_applySourceEntries (hproc : a.valProc = []) (h : applySourceEntries py a keymap p rows = .ok q) :
    Applied py a (rows.filterMap (survivor a keymap)) p q ∧
      q.anyValidEntry = (p.anyValidEntry || rows.any isObject) := by
  induction rows generalizing p with
  | nil =>
    obtain rfl : p = q := Except.ok.inj h
    exact ⟨Applied.nil,by simp⟩
  | cons row rest ih =>
    unfold applySourceEntries at h
    cases hone : applySourceEntry py a keymap p row with
    | error e => simp [hone] at h
    | ok p1 =>
      rw [hone] at h
      obtain ⟨happlied,hvalid⟩ := ih h
      by_cases hrow : ∃ entry, row = .dict entry
      · obtain ⟨entry,rfl⟩ := hrow
        rw [applySourceEntry_dict] at hone
        simp only [List.any_cons,isObject,Bool.true_or,Bool.or_true]
        split at hone
        · rename_i hskip
          obtain rfl := Except.ok.inj hone
          rw [List.filterMap_cons_none (by simp [survivor,hskip])]
          exact ⟨Applied.skip happlied,by simpa using hvalid⟩
        · rename_i hskip
          cases huid : resolveEntryUid a keymap entry with
          | error e => simp [huid] at hone
          | ok uid =>
            rw [huid] at hone
            cases uid with
            | none =>
              obtain rfl := Except.ok.inj hone
              rw [List.filterMap_cons_none (by simp [survivor,hskip,huid])]
              exact ⟨Applied.skip happlied,by simpa using hvalid⟩
            | some uid =>
              rw [List.filterMap_cons_some (b := (uid,entry)) (by simp [survivor,hskip,huid])]
              cases htarget : applyEntryTo py a ((p.data.lookup uid).getD (.dict [])) entry with
              | error e => simp [htarget,Except.map] at hone
              | ok target =>
                simp only [htarget,Except.map] at hone
                obtain rfl := Except.ok.inj hone
                exact ⟨Applied.cons hproc htarget happlied,by simpa using hvalid⟩
      · have hskipped : applySourceEntry py a keymap p row = .ok p := by
          cases row with
          | dict entry => exact absurd ⟨entry,rfl⟩ hrow
          | _ => rfl
        have hnone : survivor a keymap row = none ∧ isObject row = false := by
          cases row with
          | dict entry => exact absurd ⟨entry,rfl⟩ hrow
          | _ => exact ⟨rfl,rfl⟩
        obtain rfl := Except.ok.inj (hskipped.symm.trans hone)
        rw [List.filterMap_cons_none hnone.1]
        exact ⟨happlied,by simpa [hnone.2] using hvalid⟩

end Rows

/-- A call with a key or a key to search by and without composed values, on rows whose key fields are
null or strings. -/
structure KeyedCall (a : Spec) (source : Value) : Prop where
  keyed : a.keyed = true
  plainVals : a.valProc = []
  isSource : IsSource source
  plainKeys : ∀ entry, .dict entry ∈ rowsOf source → PlainKeys a entry

def Surviving (a : Spec) (data : Rows) (source : Value) (uid : Key) : Prop :=
  ∃ entry, .dict entry ∈ rowsOf source ∧ Survives a data entry uid

def LastSurvivor (a : Spec) (data : Rows) (source : Value) (uid : Key) (entry : Fields) : Prop :=
  ∃ before after, rowsOf source = before ++ .dict entry :: after ∧ Survives a data entry uid ∧
    ∀ later, .dict later ∈ after → ¬ Survives a data later uid

/-- Pruning is asked for, and the source is an empty list or has an object. -/
def Prunes (a : Spec) (source : Value) : Prop :=
  a.prune = true ∧ (source = .list [] ∨ ∃ entry, .dict entry ∈ rowsOf source)

/-- The keys are those of the surviving rows and, without pruning, the previous ones; the last surviving
row of a key fills its entry and no other entry changes. -/
structure Meets (py : Interpreter) (a : Spec) (data : Rows) (source : Value) (result : Rows) : Prop where
  keys : ∀ uid, uid ∈ Mapping.keys result ↔
    Surviving a data source uid ∨ (¬ Prunes a source ∧ uid ∈ Mapping.keys data)
  kept : ∀ uid ∈ Mapping.keys result, ¬ Surviving a data source uid → result.lookup uid = data.lookup uid
  filled : ∀ uid entry, LastSurvivor a data source uid entry → ∃ filled, result.lookup uid = some filled ∧
    Filled (IsFieldOf py entry) a ((data.lookup uid).getD (.dict [])) filled

/-- Every surviving row can be written and has times in time, the last one of a uid booleans in its reversed
fields, and no empty list comes for entries that are not to be pruned. -/
structure Regular (py : Interpreter) (a : Spec) (data : Rows) (source : Value) : Prop where
  taken : ∀ uid, Surviving a data source uid → Takes a (data.lookup uid)
  inTime : ∀ uid entry, .dict entry ∈ rowsOf source → Survives a data entry uid → ∀ val ∈ a.vals, InTime py entry val
  reversible : ∀ uid entry, LastSurvivor a data source uid entry →
    ∀ name val, lastSpec a.vals name = some val → Reversible py entry val
  notEmptied : ¬ (source = .list [] ∧ a.prune = false ∧ data ≠ [])

section Result
variable {py : Interpreter} {a : Spec} {data result : Rows} {source : Value} {p q : Progress} {uid : Key}
variable {entry : Fields} {rows : List Value}

theorem mem_keys_finalizePrune {prune : Bool} : uid ∈ Mapping.keys (finalizePrune prune p) ↔
    uid ∈ Mapping.keys p.data ∧ (prune = true → p.anyValidEntry = true → uid ∈ p.seenUids) := by
  unfold finalizePrune
  split
  · rename_i h
    rw [Bool.and_eq_true] at h
    rw [Mapping.mem_keys_iff,Mapping.lookup_retain,Mapping.mem_keys_iff]
    by_cases hseen : uid ∈ p.seenUids
    · simp [hseen]
    · simp [hseen,h.1,h.2]
  · rename_i h
    rw [Bool.and_eq_true] at h
    exact ⟨fun hmem => ⟨hmem,fun hp hv => absurd ⟨hp,hv⟩ h⟩,And.left⟩

theorem lookup_finalizePrune {prune : Bool} (h : uid ∈ Mapping.keys (finalizePrune prune p)) :
    (finalizePrune prune p).lookup uid = p.data.lookup uid := by
  have hseen := (mem_keys_finalizePrune.mp h).2
  unfold finalizePrune
  split
  · rename_i hp
    rw [Bool.and_eq_true] at hp
    rw [Mapping.lookup_retain,if_pos (by simpa using hseen hp.1 hp.2)]
  · rfl

theorem keyValue_mem {keymap : Mapping Key Key} {entry : Fields} {value : Value}
    (h : a.keyValue keymap entry = some value) :
    ∃ field, (field ∈ a.key ∨ field ∈ a.keySecondary ∨ field ∈ a.keySearch) ∧ entry.lookup field = some value := by
  unfold Spec.keyValue at h
  split at h
  · rename_i field hfield
    have hsearch : field ∈ a.keySearch := (Option.filter_eq_some_iff.mp hfield).1
    split at h
    · cases h
    · exact ⟨field,Or.inr (Or.inr hsearch),h⟩
  · obtain ⟨hor,-⟩ := Option.filter_eq_some_iff.mp h
    rcases Option.or_eq_some_iff.mp hor with hkey | ⟨-,hkey⟩
    · obtain ⟨field,hfield,hvalue⟩ := Option.bind_eq_some_iff.mp hkey
      exact ⟨field,Or.inl hfield,hvalue⟩
    · obtain ⟨field,hfield,hvalue⟩ := Option.bind_eq_some_iff.mp hkey
      exact ⟨field,Or.inr (Or.inl hfield),hvalue⟩

theorem survivor_eq_some_iff {keymap : Mapping Key Key} {row : Value} :
    survivor a keymap row = some (uid,entry) ↔
      row = .dict entry ∧ shouldSkipEntry entry a.only a.skip = false ∧
        resolveEntryUid a keymap entry = .ok (some uid) := by
  cases row with
  | dict fields =>
    simp only [survivor,Value.dict.injEq]
    cases hskip : shouldSkipEntry fields a.only a.skip with
    | true =>
      simp only [if_true,reduceCtorEq,false_iff,not_and]
      rintro rfl hnot
      rw [hskip] at hnot
      cases hnot
    | false =>
      simp only [Bool.false_eq_true,if_false]
      split
      · rename_i k huid
        simp only [Option.some.injEq,Prod.mk.injEq]
        constructor
        · rintro ⟨rfl,rfl⟩
          exact ⟨rfl,hskip,huid⟩
        · rintro ⟨rfl,-,hk⟩
          rw [huid] at hk
          exact ⟨Option.some.inj (Except.ok.inj hk),rfl⟩
      · rename_i hnone
        simp only [reduceCtorEq,false_iff,not_and]
        rintro rfl -
        exact hnone uid
  | none | bool | int | float | str | list | datetime => simp [survivor]

def survivors (a : Spec) (data : Rows) (source : Value) : List (Key × Fields) :=
  (rowsOf source).filterMap (survivor a (a.keymap data))

theorem survivor_dict_iff (h : PlainKeys a entry) {entry' : Fields} :
    survivor a (a.keymap data) (.dict entry) = some (uid,entry') ↔ entry = entry' ∧ Survives a data entry uid := by
  rw [survivor_eq_some_iff,survives_iff h,Value.dict.injEq]
  constructor
  · rintro ⟨rfl,hrow⟩
    exact ⟨rfl,hrow⟩
  · rintro ⟨rfl,hrow⟩
    exact ⟨rfl,hrow⟩

theorem mem_survivors_iff (h : KeyedCall a source) :
    uid ∈ (survivors a data source).map Prod.fst ↔ Surviving a data source uid := by
  unfold survivors Surviving
  simp only [List.mem_map,List.mem_filterMap,Prod.exists,exists_and_right,exists_eq_right]
  constructor
  · rintro ⟨entry,row,hrow,hsurvivor⟩
    obtain ⟨rfl,-⟩ := survivor_eq_some_iff.mp hsurvivor
    exact ⟨entry,hrow,((survivor_dict_iff (h.plainKeys entry hrow)).mp hsurvivor).2⟩
  · rintro ⟨entry,hrow,hsurvives⟩
    exact ⟨entry,_,hrow,(survivor_dict_iff (h.plainKeys entry hrow)).mpr ⟨rfl,hsurvives⟩⟩

theorem surviving_of_lastSurvivor (h : LastSurvivor a data source uid entry) : Surviving a data source uid := by
  obtain ⟨before,after,hrows,hsurvives,-⟩ := h
  exact ⟨entry,by simp [hrows],hsurvives⟩

theorem lastRow_survivors_iff (h : KeyedCall a source) :
    lastRow (survivors a data source) uid = some entry ↔ LastSurvivor a data source uid entry := by
  have hrow : ∀ row ∈ rowsOf source, ∀ entry,
      (survivor a (a.keymap data) row).bind (fun row => if row.1 = uid then some row.2 else none) = some entry ↔
        row = .dict entry ∧ Survives a data entry uid := by
    intro row hmem entry
    rw [Option.bind_eq_some_iff]
    constructor
    · rintro ⟨⟨uid',entry'⟩,hsurvivor,hif⟩
      split at hif
      · rename_i huid
        simp only at huid hif
        obtain rfl := Option.some.inj hif
        obtain ⟨rfl,-⟩ := survivor_eq_some_iff.mp hsurvivor
        rw [huid] at hsurvivor
        exact ⟨rfl,((survivor_dict_iff (h.plainKeys _ hmem)).mp hsurvivor).2⟩
      · cases hif
    · rintro ⟨rfl,hsurvives⟩
      exact ⟨(uid,entry),(survivor_dict_iff (h.plainKeys _ hmem)).mpr ⟨rfl,hsurvives⟩,if_pos rfl⟩
  unfold lastRow survivors LastSurvivor
  rw [lastSome_filterMap,lastSome_eq_some_iff]
  constructor
  · rintro ⟨before,row,after,hrows,hlast,hafter⟩
    obtain ⟨rfl,hsurvives⟩ := (hrow row (by simp [hrows]) entry).mp hlast
    refine ⟨before,after,hrows,hsurvives,fun later hlater hsurvives' => ?_⟩
    have hnone := hafter _ hlater
    rw [(hrow _ (by simp [hrows,hlater]) later).mpr ⟨rfl,hsurvives'⟩] at hnone
    cases hnone
  · rintro ⟨before,after,hrows,hsurvives,hafter⟩
    refine ⟨before,_,after,hrows,(hrow _ (by simp [hrows]) entry).mpr ⟨rfl,hsurvives⟩,fun row hmem => ?_⟩
    by_contra hne
    obtain ⟨later,hlater⟩ := Option.ne_none_iff_exists'.mp hne
    obtain ⟨rfl,hsurvives'⟩ := (hrow row (by simp [hrows,hmem]) later).mp hlater
    exact hafter later hmem hsurvives'

theorem returns_iff (h : KeyedCall a source) : (∃ result, parseApi py a data source = .ok result) ↔
    ∀ uid entry, .dict entry ∈ rowsOf source → Survives a data entry uid →
      Takes a (data.lookup uid) ∧ ∀ val ∈ a.vals, InTime py entry val := by
  have hs : a.Supported := fun rule hrule => by
    rw [h.plainVals] at hrule
    cases hrule
  rw [parseApi_ok_iff hs h.isSource]
  simp only [inTime_iff]
  constructor
  · intro hrows uid entry hmem hsurvives
    obtain ⟨hskip,huid⟩ := (survives_iff (h.plainKeys entry hmem)).mp hsurvives
    exact (hrows _ hmem entry rfl hskip).2 uid huid
  · rintro hall row hmem entry rfl hskip
    have hplain : PlainKeys a entry := h.plainKeys entry hmem
    refine ⟨resolveEntryUid_ok_iff.mpr (fun value hvalue => ?_),fun uid huid => ?_⟩
    · obtain ⟨field,hfield,hlookup⟩ := keyValue_mem hvalue
      exact isSome_key?_of_plainKey (hplain field hfield value hlookup)
    · exact hall uid entry hmem ((survives_iff hplain).mpr ⟨hskip,huid⟩)

/-- What the parser makes of the entries before their fields are looked at. -/
structure Makes (py : Interpreter) (a : Spec) (data : Rows) (source : Value) (result : Rows) : Prop where
  keys : ∀ uid, uid ∈ Mapping.keys result ↔
    Surviving a data source uid ∨ (¬ Prunes a source ∧ uid ∈ Mapping.keys data)
  kept : ∀ uid ∈ Mapping.keys result, ¬ Surviving a data source uid → result.lookup uid = data.lookup uid
  filled : ∀ uid entry, LastSurvivor a data source uid entry → ∃ filled, result.lookup uid = some filled ∧
    Filled (Writes py entry) a ((data.lookup uid).getD (.dict [])) filled

theorem makes_of_applySourceEntries (h : KeyedCall a source) (hrows : rowsOf source = rows) (hne : source ≠ .list [])
    (hq : applySourceEntries py a (a.keymap data) { data := data } rows = .ok q) :
    Makes py a data source (finalizePrune a.prune q) := by
  obtain ⟨happlied,hvalid⟩ := applied_of_applySourceEntries h.plainVals hq
  have hsurvivors : rows.filterMap (survivor a (a.keymap data)) = survivors a data source := by
    rw [survivors,hrows]
  rw [hsurvivors] at happlied
  have hprunes : Prunes a source ↔ a.prune = true ∧ q.anyValidEntry = true := by
    have hobject : (∃ entry, .dict entry ∈ rowsOf source) ↔ rows.any isObject = true := by
      rw [List.any_eq_true,hrows]
      constructor
      · rintro ⟨entry,hentry⟩
        exact ⟨_,hentry,rfl⟩
      · rintro ⟨row,hrow,hobject⟩
        cases row with
        | dict entry => exact ⟨entry,hrow⟩
        | none | bool | int | float | str | list | datetime => cases hobject
    simp only [Prunes,hobject,hne,false_or,hvalid,Bool.false_or]
  have hseen : ∀ uid, uid ∈ q.seenUids ↔ Surviving a data source uid := fun uid => by
    rw [happlied.seen,mem_survivors_iff h]
    simp
  have hkeys : ∀ uid, uid ∈ Mapping.keys q.data ↔
      Surviving a data source uid ∨ uid ∈ Mapping.keys data := fun uid => by
    rw [Mapping.mem_keys_iff,Mapping.mem_keys_iff,← mem_survivors_iff h]
    by_cases hmem : uid ∈ (survivors a data source).map Prod.fst
    · obtain ⟨entry,hentry⟩ := Option.isSome_iff_exists.mp (lastRow_isSome_iff.mpr hmem)
      obtain ⟨filled,hfilled,-⟩ := happlied.filled uid entry hentry
      simp [hmem,hfilled]
    · rw [happlied.kept uid hmem]
      simp [hmem]
  have hall : ∀ uid, uid ∈ Mapping.keys (finalizePrune a.prune q) ↔
      Surviving a data source uid ∨ (¬ Prunes a source ∧ uid ∈ Mapping.keys data) := fun uid => by
    rw [mem_keys_finalizePrune,hkeys,hseen,hprunes]
    tauto
  refine ⟨hall,fun uid hmem hnot => ?_,fun uid entry hentry => ?_⟩
  · rw [lookup_finalizePrune hmem]
    exact happlied.kept uid (fun hmem => hnot ((mem_survivors_iff h).mp hmem))
  · rw [← lastRow_survivors_iff h] at hentry
    obtain ⟨filled,hfilled,hfields⟩ := happlied.filled uid entry hentry
    have hmem : uid ∈ Mapping.keys (finalizePrune a.prune q) :=
      (hall uid).mpr (Or.inl ((mem_survivors_iff h).mp (lastRow_isSome_iff.mp (by simp [hentry]))))
    exact ⟨filled,by rw [lookup_finalizePrune hmem,hfilled],hfields⟩

theorem makes_of_no_rows (hrows : rowsOf source = []) (hne : source ≠ .list []) : Makes py a data source data := by
  have hnone : ∀ uid, ¬ Surviving a data source uid := by
    rintro uid ⟨entry,hmem,-⟩
    rw [hrows] at hmem
    cases hmem
  have hprunes : ¬ Prunes a source := by
    rintro ⟨-,hempty | ⟨entry,hmem⟩⟩
    · exact hne hempty
    · rw [hrows] at hmem
      cases hmem
  refine ⟨fun uid => by simp [hnone,hprunes],fun _ _ _ => rfl,fun uid entry hentry => ?_⟩
  obtain ⟨before,after,hsplit,-⟩ := hentry
  rw [hrows] at hsplit
  simp at hsplit

theorem eq_list_nil_of_sourceRows (h : IsSource source) (hrows : sourceRows source = .ok (some [])) :
    source = .list [] := by
  cases source with
  | none | str | dict => cases hrows
  | list rows => rw [Option.some.inj (Except.ok.inj hrows)]
  | bool | int | float | datetime => exact absurd h id

theorem makes_of_parseApi (h : KeyedCall a source) (hne : source ≠ .list [])
    (hresult : parseApi py a data source = .ok result) : Makes py a data source result := by
  obtain ⟨rows?,hrows,hrowsOf⟩ := sourceRows_of_isSource h.isSource
  unfold parseApi at hresult
  rw [hrows] at hresult
  cases rows? with
  | none =>
    obtain rfl := Except.ok.inj hresult
    exact makes_of_no_rows hrowsOf hne
  | some rows =>
    cases rows with
    | nil => exact absurd (eq_list_nil_of_sourceRows h.isSource hrows) hne
    | cons row rest =>
      obtain ⟨q,hq,rfl⟩ := of_map_ok hresult
      exact makes_of_applySourceEntries h hrowsOf hne hq

theorem Makes.meets_iff_reversible (h : Makes py a data source result)
    (htaken : ∀ uid, Surviving a data source uid → Takes a (data.lookup uid)) :
    Meets py a data source result ↔ ∀ uid entry, LastSurvivor a data source uid entry →
      ∀ name val, lastSpec a.vals name = some val → Reversible py entry val := by
  constructor
  · intro hmeets uid entry hlast name val hspec
    obtain ⟨filled,hlookup,hwritten⟩ := h.filled uid entry hlast
    obtain ⟨filled',hlookup',hfields⟩ := hmeets.filled uid entry hlast
    obtain rfl := Option.some.inj (hlookup.symm.trans hlookup')
    refine (filled_iff hwritten).mp hfields ?_ name val hspec
    -- an entry that is no object is written into by no specification
    by_contra hobject
    cases hprevious : data.lookup uid with
    | none => simp [hprevious,isObject] at hobject
    | some other =>
      rw [hprevious,Option.getD_some,Bool.not_eq_true] at hobject
      have hleaves := htaken uid (surviving_of_lastSurvivor hlast) other hprevious hobject
      rw [hleaves.vals] at hspec
      cases hspec
  · intro hall
    refine ⟨h.keys,h.kept,fun uid entry hlast => ?_⟩
    obtain ⟨filled,hlookup,hwritten⟩ := h.filled uid entry hlast
    exact ⟨filled,hlookup,(filled_iff hwritten).mpr (fun _ => hall uid entry hlast)⟩

theorem meets_nil_iff : Meets py a data (.list []) [] ↔ (a.prune = false → data = []) := by
  have hnone : ∀ uid, ¬ Surviving a data (.list []) uid := by
    rintro uid ⟨entry,hmem,-⟩
    exact List.not_mem_nil hmem
  have hprunes : Prunes a (.list []) ↔ a.prune = true := by simp [Prunes]
  constructor
  · intro h hprune
    by_contra hne
    obtain ⟨p,rest,rfl⟩ := List.exists_cons_of_ne_nil hne
    have hkey := (h.keys p.1).mpr (Or.inr ⟨by simp [hprunes,hprune],by simp [Mapping.keys]⟩)
    cases hkey
  · intro h
    refine ⟨fun uid => ?_,fun uid hmem => absurd hmem List.not_mem_nil,fun uid entry hentry => ?_⟩
    · simp only [hnone,hprunes,false_or,Bool.not_eq_true]
      refine ⟨fun hmem => absurd hmem List.not_mem_nil,?_⟩
      rintro ⟨hprune,hmem⟩
      rw [h hprune] at hmem
      exact hmem
    · obtain ⟨before,after,hsplit,-⟩ := hentry
      simp [rowsOf] at hsplit

/-- The parser meets its specification exactly on the regular calls. -/
theorem meets_iff (py : Interpreter) (a : Spec) (data : Rows) (source : Value) (h : KeyedCall a source) :
    (∃ result, parseApi py a data source = .ok result ∧ Meets py a data source result) ↔ Regular py a data source := by
  by_cases hempty : source = .list []
  · subst hempty
    have hresult : parseApi py a data (.list []) = .ok [] := rfl
    have hnone : ∀ entry, .dict entry ∉ rowsOf (.list []) := fun entry => List.not_mem_nil
    rw [hresult]
    simp only [Except.ok.injEq,exists_eq_left',meets_nil_iff]
    constructor
    · intro hprune
      refine ⟨fun uid ⟨entry,hmem,_⟩ => absurd hmem (hnone entry),fun uid entry hmem => absurd hmem (hnone entry),
        fun uid entry ⟨before,after,hsplit,_⟩ => ?_,fun hall => hall.2.2 (hprune hall.2.1)⟩
      simp [rowsOf] at hsplit
    · intro hregular hprune
      by_contra hne
      exact hregular.notEmptied ⟨rfl,hprune,hne⟩
  · constructor
    · rintro ⟨result,hresult,hmeets⟩
      have hreturns := (returns_iff h).mp ⟨result,hresult⟩
      have htaken : ∀ uid, Surviving a data source uid → Takes a (data.lookup uid) := by
        rintro uid ⟨entry,hmem,hsurvives⟩
        exact (hreturns uid entry hmem hsurvives).1
      exact ⟨htaken,fun uid entry hmem hsurvives => (hreturns uid entry hmem hsurvives).2,
        ((makes_of_parseApi h hempty hresult).meets_iff_reversible htaken).mp hmeets,fun hall => hempty hall.1⟩
    · intro hregular
      obtain ⟨result,hresult⟩ := (returns_iff h).mpr (fun uid entry hmem hsurvives =>
        ⟨hregular.taken uid ⟨entry,hmem,hsurvives⟩,hregular.inTime uid entry hmem hsurvives⟩)
      exact ⟨result,hresult,((makes_of_parseApi h hempty hresult).meets_iff_reversible hregular.taken).mpr
        hregular.reversible⟩

end Result

theorem keyedCall_tank : KeyedCall byId (.list [.dict [("id",.str "tank")],.str "rows"]) where
  keyed := by decide
  plainVals := rfl
  isSource := trivial
  plainKeys entry hmem field hfield value hvalue := by
    obtain rfl : [("id",.str "tank")] = entry := by simpa [rowsOf,eq_comm] using hmem
    rw [Mapping.lookup_cons] at hvalue
    split at hvalue
    · obtain rfl := Option.some.inj hvalue
      trivial
    · cases hvalue

theorem meets_iff_tank :
    (∃ result, parseApi plain byId [(.str "boot",.dict [])] (.list [.dict [("id",.str "tank")],.str "rows"]) = .ok result ∧
      Meets plain byId [(.str "boot",.dict [])] (.list [.dict [("id",.str "tank")],.str "rows"]) result) ↔
    Regular plain byId [(.str "boot",.dict [])] (.list [.dict [("id",.str "tank")],.str "rows"]) :=
  meets_iff plain byId _ _ keyedCall_tank

/-- An empty list drops what is not to be pruned. -/
theorem not_meets_of_nil : ¬ ∀ py a data source, KeyedCall a source →
    ∃ result, parseApi py a data source = .ok result ∧ Meets py a data source result := by
  intro hall
  obtain ⟨result,hresult,hmeets⟩ := hall plain { byId with prune := false } [(.str "tank",.dict [])] (.list [])
    ⟨by decide,rfl,trivial,fun entry hmem => absurd hmem List.not_mem_nil⟩
  obtain rfl := Except.ok.inj hresult
  have hkey := (hmeets.keys (.str "tank")).mpr (Or.inr ⟨fun hprunes => (by cases hprunes.1),by decide⟩)
  cases hkey

end TruenasCE.ApiParser
