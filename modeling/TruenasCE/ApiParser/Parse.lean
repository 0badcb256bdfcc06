import Mathlib.Data.List.Infix
import TruenasCE.ApiParser.Fields

/-! # Parsing a source

`parse_api` on a map of entries by uid, and on a single object when no key is asked for.
-/
namespace TruenasCE.ApiParser
open Library

structure ProcStep where
  name : Option String := none
  action : Option String := none
  key : Option String := none
  text : Option String := none

/-- The arguments of `parse_api` besides `data` and `source`; `None` and an empty list of rules
are the same to it. A filter is a field and a value. -/
structure Spec where
  key : Option String := none
  keySecondary : Option String := none
  keySearch : Option String := none
  vals : List ApiValueSpec := []
  valProc : List (List ProcStep) := []
  ensureVals : List ApiValueSpec := []
  only : List (String × Value) := []
  skip : List (String × Value) := []
  prune : Bool := true

/-- The entries by uid; an entry of an earlier call need not be an object. -/
abbrev Rows := Mapping Key Value

def matchesOnly (entry : Fields) (only : List (String × Value)) : Bool :=
  only.all (fun (key,value) => ((entry.lookup key).getD .none).eq value)

def canSkip (entry : Fields) (skip : List (String × Value)) : Bool :=
  skip.any (fun (name,value) =>
    match entry.lookup name with
    | some x => x.eq value
    | none => value.eq (.str ""))

def shouldSkipEntry (entry : Fields) (only skip : List (String × Value)) : Bool :=
  !matchesOnly entry only || canSkip entry skip

def supportedValsProcActions : List String := ["combine"]

section Proc
variable (py : Interpreter)

def appendValue (value tmp : Value) : Value :=
  if value.truthy then .str (py.str value ++ py.str tmp) else tmp

def appendText (step : ProcStep) (value : Value) : Value :=
  match step.text with
  | some text => appendValue py value (.str text)
  | none => value

/-- `_combine_value`; the source is `none` if it is no object. -/
def combineValue (source : Option Fields) (step : ProcStep) (value : Value) : Except Raised Value :=
  match step.key with
  | none => .ok (appendText py step value)
  | some key =>
    match source with
    | none => .error .notObject
    | some source => .ok (appendText py step (appendValue py value ((source.lookup key).getD (.str "unknown"))))

/-- `_process_val_sub` behind the steps that gave `name`, `action` and `value` -/
def processValSub (source : Option Fields) (name action : Option String) (value : Value) :
    List ProcStep → Except Raised (Option String × Value)
  | [] => .ok (name,value)
  | step :: rest =>
    match step.name with
    | some name => processValSub source (some name) action value rest
    | none =>
      match step.action with
      | some act =>
        if act ∈ supportedValsProcActions then processValSub source name (some act) value rest
        else .error (.unsupportedAction act name)
      | none =>
        match name, action with
        | some _, some act =>
          if act = "combine" then
            match combineValue py source step value with
            | .error e => .error e
            | .ok value => processValSub source name action value rest
          else processValSub source name action value rest
        | _, _ => .ok (name,value)

def fillValsProc (target : Fields) : List (List ProcStep) → Except Raised Fields
  | [] => .ok target
  | rule :: rest =>
    match processValSub py (some target) none none .none rule with
    | .error e => .error e
    | .ok (some name,value) =>
      fillValsProc (if name = "" ∨ value.isNone then target else Mapping.set target name value) rest
    | .ok (none,_) => fillValsProc target rest

def applyEntry (a : Spec) (target entry : Fields) : Except Raised Fields :=
  match fillVals py target entry a.vals with
  | .error e => .error e
  | .ok target => fillValsProc py (fillEnsureVals target a.ensureVals) a.valProc

/-- `name in target` for an entry that is no object; `none` is its `TypeError`. -/
def holdsName (name : String) : Value → Option Bool
  | .str s => some (decide (name.toList <:+: s.toList))
  | .list items => some (items.any (fun item => item.eq (.str name)))
  | _ => none

/-- `fill_vals_proc` on an entry that is no object -/
def fillValsProcOther : List (List ProcStep) → Except Raised Unit
  | [] => .ok ()
  | rule :: rest =>
    match processValSub py none none none .none rule with
    | .error e => .error e
    | .ok (some name,value) =>
      if name = "" ∨ value.isNone then fillValsProcOther rest else .error .notObject
    | .ok (none,_) => fillValsProcOther rest

/-- `_apply_entry` on an entry that is no object: whatever would write into it raises. -/
def applyEntryOther (a : Spec) (target : Value) : Except Raised Unit :=
  if a.vals = [] ∧ ∀ val ∈ a.ensureVals, holdsName val.name target = some true then fillValsProcOther py a.valProc
  else .error .notObject

/-- `_apply_entry` on the previous entry of a row -/
def applyEntryTo (a : Spec) (previous : Value) (entry : Fields) : Except Raised Value :=
  match previous with
  | .dict target => (applyEntry py a target entry).map .dict
  | other => (applyEntryOther py a other).map (fun _ => other)

end Proc

def given (arg : Option String) : Option String := arg.filter (fun s => s ≠ "")

def Spec.keyed (a : Spec) : Bool := (given a.key).isSome || (given a.keySearch).isSome

/-- `generate_keymap`, in the order of the map; of two entries with one value the later counts. -/
def generateKeymap (data : Rows) (field : String) : Mapping Key Key :=
  data.filterMap (fun (uid,entry) =>
    match entry with
    | .dict fields => ((fields.lookup field).bind Value.key?).map (fun k => (k,uid))
    | _ => none)

def Spec.keymap (a : Spec) (data : Rows) : Mapping Key Key :=
  match given a.keySearch with
  | none => []
  | some field => generateKeymap data field

def Spec.keyValue (a : Spec) (keymap : Mapping Key Key) (entry : Fields) : Option Value :=
  match given a.keySearch with
  | some field => if keymap = [] then none else entry.lookup field
  | none =>
    ((a.key.bind (fun key => entry.lookup key)).or (a.keySecondary.bind (fun key => entry.lookup key))).filter
      (fun value => !value.isNone)

/-- `_resolve_entry_uid` for a keyed result. A value that cannot be hashed raises in
`uid not in data` or in `keymap.get`. -/
def resolveEntryUid (a : Spec) (keymap : Mapping Key Key) (entry : Fields) : Except Raised (Option Key) :=
  match a.keyValue keymap entry with
  | none => .ok none
  | some value =>
    match value.key? with
    | none => .error .unhashable
    | some k =>
      if (given a.keySearch).isSome then .ok ((keymap.reverse.lookup k).filter (fun uid => uid ≠ .none))
      else .ok (some k)

structure Progress where
  data : Rows
  seenUids : List Key := []
  anyValidEntry : Bool := false

section Parse
variable (py : Interpreter)

/-- A row of the source in `_apply_source_entries` -/
def applySourceEntry (a : Spec) (keymap : Mapping Key Key) (p : Progress) : Value → Except Raised Progress
  | .dict entry =>
    if shouldSkipEntry entry a.only a.skip then .ok { p with anyValidEntry := true }
    else
      match resolveEntryUid a keymap entry with
      | .error e => .error e
      | .ok none => .ok { p with anyValidEntry := true }
      | .ok (some uid) => (applyEntryTo py a ((p.data.lookup uid).getD (.dict [])) entry).map (fun target =>
        { data := Mapping.set p.data uid target, seenUids := uid :: p.seenUids, anyValidEntry := true })
  | _ => .ok p

def applySourceEntries (a : Spec) (keymap : Mapping Key Key) (p : Progress) : List Value → Except Raised Progress
  | [] => .ok p
  | row :: rest =>
    match applySourceEntry py a keymap p row with
    | .error e => .error e
    | .ok p => applySourceEntries a keymap p rest

def finalizePrune (prune : Bool) (p : Progress) : Rows :=
  if prune && p.anyValidEntry then Mapping.retain p.data (fun uid => decide (uid ∈ p.seenUids)) else p.data

def sourceRows : Value → Except Raised (Option (List Value))
  | .none => .ok none
  | .str _ => .ok none
  | .dict fields => .ok (some [.dict fields])
  | .list rows => .ok (some rows)
  | value => if value.truthy then .error .notIterable else .ok (some [])

/-- `parse_api` with a key or a key to search by -/
def parseApi (a : Spec) (data : Rows) (source : Value) : Except Raised Rows :=
  match sourceRows source with
  | .error e => .error e
  | .ok none => .ok data
  | .ok (some []) => .ok []
  | .ok (some rows) => (applySourceEntries py a (a.keymap data) { data := data } rows).map (finalizePrune a.prune)

def applyToSingle (a : Spec) (data : Fields) : Value → Except Raised Fields
  | .dict entry => if shouldSkipEntry entry a.only a.skip then .ok data else applyEntry py a data entry
  | _ => .ok data

def applyAllToSingle (a : Spec) (data : Fields) : List Value → Except Raised Fields
  | [] => .ok data
  | row :: rest =>
    match applyToSingle py a data row with
    | .error e => .error e
    | .ok data => applyAllToSingle a data rest

def parseApiSingle (a : Spec) (data : Fields) (source : Value) : Except Raised Fields :=
  match sourceRows source with
  | .error e => .error e
  | .ok none => .ok (fillDefaults data a.vals)
  | .ok (some []) => .ok (fillDefaults data a.vals)
  | .ok (some rows) => applyAllToSingle py a data rows

end Parse

end TruenasCE.ApiParser
