import TruenasCE.ApiParser.Parse
import TruenasCE.Library.Overlay
import TruenasCE.Library.Raising

/-! # What the parser raises

A call raises exactly where a row has a key that cannot be hashed or a time that no datetime can hold, or
has to be written into a previous entry that is no object.
-/
namespace TruenasCE.ApiParser
open Library

/-- Every action is one that `_validate_action` knows. -/
def Spec.Supported (a : Spec) : Prop :=
  ∀ rule ∈ a.valProc, ∀ step ∈ rule, ∀ action ∈ step.action, action ∈ supportedValsProcActions

def Holdable (py : Interpreter) (entry : Fields) (val : ApiValueSpec) : Prop :=
  val.convert = some "utc_from_timestamp" → ∀ time, readValue py entry val = .int time → time < yearTenThousand

/-- A step that gives the name or the action of a rule; the others are its parts. -/
def ProcStep.isHead (step : ProcStep) : Bool := step.name.isSome || step.action.isSome

def parts (rule : List ProcStep) : List ProcStep := rule.filter (fun step => !step.isHead)

def ruleName (rule : List ProcStep) : Option String := lastSome ProcStep.name rule

/-- The name and the action come before the first part, but for those that are given. -/
def ComposesFrom (name action : Option String) (rule : List ProcStep) : Prop :=
  (name.isSome = true ∨ ∃ step ∈ rule.takeWhile ProcStep.isHead, step.name.isSome = true) ∧
    (action.isSome = true ∨ ∃ step ∈ rule.takeWhile ProcStep.isHead, step.name = none ∧ step.action.isSome = true)

/-- A rule that reads no field and writes none. -/
def Idle (rule : List ProcStep) : Prop :=
  ComposesFrom none none rule → ∀ step ∈ parts rule, step.key = none ∧ (step.text = none ∨ ruleName rule = some "")

/-- The call writes nothing into an entry that is no object and reads nothing from it. -/
structure Leaves (a : Spec) (other : Value) : Prop where
  vals : a.vals = []
  ensureVals : ∀ val ∈ a.ensureVals, holdsName val.name other = some true
  valProc : ∀ rule ∈ a.valProc, Idle rule

def isObject : Value → Bool
  | .dict _ => true
  | _ => false

/-- The previous entry of a uid, if any, is an object or is left alone. -/
def Takes (a : Spec) (previous : Option Value) : Prop := ∀ other ∈ previous, isObject other = false → Leaves a other

section Raise
variable {py : Interpreter} {a : Spec} {entry : Fields} {val : ApiValueSpec}

theorem fieldValue_ok_iff : (∃ value, fieldValue py entry val = .ok value) ↔ Holdable py entry val := by
  unfold fieldValue Holdable convertValue
  split
  · rename_i hc
    simp only [hc,true_implies]
    unfold convertTimestamp
    split
    · rename_i time hread
      simp only [hread,Value.int.injEq,forall_eq']
      have hten : yearTenThousand = 253402300800000 := rfl
      have hmillis : millisTimestampThreshold = 100000000000 := rfl
      split_ifs with hpos hsecond hlast
      · simp only [Except.ok.injEq,exists_eq',true_iff]
        omega
      · simp only [Except.ok.injEq,exists_eq',true_iff]
        omega
      · simp [hlast]
      · simp [hlast]
    · rename_i hread
      simp only [Except.ok.injEq,exists_eq',true_iff]
      exact fun time ht => absurd ht (hread time)
  · rename_i hc
    simp only [hc,false_implies,iff_true]
    split
    · exact ⟨_,rfl⟩
    · exact ⟨_,rfl⟩

theorem fillVals_ok_iff (target : Fields) (vals : List ApiValueSpec) :
    (∃ filled, fillVals py target entry vals = .ok filled) ↔ ∀ val ∈ vals, Holdable py entry val := by
  induction vals generalizing target with
  | nil => simp [fillVals]
  | cons val rest ih =>
    rw [List.forall_mem_cons,← fieldValue_ok_iff]
    unfold fillVals setVal
    cases h : fieldValue py entry val with
    | error e => simp [Except.map]
    | ok value => simp [Except.map,ih]

theorem processValSub_ok {rule : List ProcStep}
    (h : ∀ step ∈ rule, ∀ action ∈ step.action, action ∈ supportedValsProcActions)
    (source : Fields) (name action : Option String) (value : Value) :
    ∃ result, processValSub py (some source) name action value rule = .ok result := by
  induction rule generalizing name action value with
  | nil => exact ⟨_,rfl⟩
  | cons step rest ih =>
    obtain ⟨hstep,hrest⟩ := List.forall_mem_cons.mp h
    unfold processValSub
    split
    · exact ih hrest _ _ _
    · split
      · rename_i act hact
        rw [if_pos (hstep act hact)]
        exact ih hrest _ _ _
      · split
        · split
          · have hcombine : ∃ combined, combineValue py (some source) step value = .ok combined := by
              unfold combineValue
              cases step.key with
              | none => exact ⟨_,rfl⟩
              | some key => exact ⟨_,rfl⟩
            obtain ⟨combined,hcombined⟩ := hcombine
            rw [hcombined]
            exact ih hrest _ _ _
          · exact ih hrest _ _ _
        · exact ⟨_,rfl⟩

theorem fillValsProc_ok {rules : List (List ProcStep)}
    (h : ∀ rule ∈ rules, ∀ step ∈ rule, ∀ action ∈ step.action, action ∈ supportedValsProcActions) (target : Fields) :
    ∃ filled, fillValsProc py target rules = .ok filled := by
  induction rules generalizing target with
  | nil => exact ⟨_,rfl⟩
  | cons rule rest ih =>
    obtain ⟨hrule,hrest⟩ := List.forall_mem_cons.mp h
    have hresult : ∃ result, processValSub py (some target) none none .none rule = .ok result :=
      processValSub_ok hrule target none none .none
    obtain ⟨⟨name,value⟩,hresult⟩ := hresult
    unfold fillValsProc
    rw [hresult]
    cases name with
    | none => exact ih hrest _
    | some name => exact ih hrest _

theorem applyEntry_ok_iff (hs : a.Supported) (target : Fields) :
    (∃ filled, applyEntry py a target entry = .ok filled) ↔ ∀ val ∈ a.vals, Holdable py entry val := by
  rw [← fillVals_ok_iff target]
  unfold applyEntry
  cases h : fillVals py target entry a.vals with
  | error e => simp
  | ok filled => simp [fillValsProc_ok hs]

/-- The rule gives no name or no value. -/
def Harmless (r : Except Raised (Option String × Value)) : Prop :=
  ∃ name value, r = .ok (name,value) ∧ (name = none ∨ name = some "" ∨ value.isNone = true)

theorem isNone_appendText {step : ProcStep} {value : Value} :
    (appendText py step value).isNone = true ↔ value.isNone = true ∧ step.text = none := by
  unfold appendText
  cases step.text with
  | none => simp
  | some text =>
    simp only [appendValue,reduceCtorEq,and_false,iff_false]
    cases value.truthy with
    | true => simp [Value.isNone]
    | false => simp [Value.isNone]

theorem parts_cons_of_isHead {step : ProcStep} {rest : List ProcStep} (h : step.isHead = true) :
    parts (step :: rest) = parts rest := List.filter_cons_of_neg (by simp [h])

theorem parts_cons_of_part {step : ProcStep} {rest : List ProcStep} (h : step.isHead = false) :
    parts (step :: rest) = step :: parts rest := List.filter_cons_of_pos (by simp [h])

theorem ruleName_cons (step : ProcStep) (rest : List ProcStep) :
    ruleName (step :: rest) = (ruleName rest).or step.name := rfl

theorem harmless_running {rule : List ProcStep}
    (hs : ∀ step ∈ rule, ∀ action ∈ step.action, action ∈ supportedValsProcActions) (name : String) (value : Value) :
    Harmless (processValSub py none (some name) (some "combine") value rule) ↔
      (∀ step ∈ parts rule, step.key = none) ∧
        ((ruleName rule).getD name = "" ∨ (value.isNone = true ∧ ∀ step ∈ parts rule, step.text = none)) := by
  induction rule generalizing name value with
  | nil => simp [processValSub,Harmless,parts,ruleName,lastSome]
  | cons step rest ih =>
    obtain ⟨hstep,hrest⟩ := List.forall_mem_cons.mp hs
    rw [ruleName_cons]
    unfold processValSub
    cases hname : step.name with
    | some name' =>
      rw [parts_cons_of_isHead (by simp [ProcStep.isHead,hname])]
      simp only
      rw [ih hrest]
      cases ruleName rest with
      | none => simp
      | some last => simp
    | none =>
      rw [Option.or_none]
      cases haction : step.action with
      | some act =>
        obtain rfl : act = "combine" := List.mem_singleton.mp (hstep act haction)
        rw [parts_cons_of_isHead (by simp [ProcStep.isHead,haction])]
        simp only [supportedValsProcActions,List.mem_singleton,if_true]
        exact ih hrest name value
      | none =>
        rw [parts_cons_of_part (by simp [ProcStep.isHead,hname,haction])]
        simp only [if_true,List.forall_mem_cons]
        unfold combineValue
        cases hkey : step.key with
        | some key => simp [Harmless]
        | none =>
          simp only [true_and]
          rw [ih hrest,isNone_appendText,and_assoc]

theorem harmless_iff {rule : List ProcStep}
    (hs : ∀ step ∈ rule, ∀ action ∈ step.action, action ∈ supportedValsProcActions) (name action : Option String)
    (haction : ∀ act ∈ action, act = "combine") :
    Harmless (processValSub py none name action .none rule) ↔
      (ComposesFrom name action rule → ∀ step ∈ parts rule,
        step.key = none ∧ (step.text = none ∨ (ruleName rule).or name = some "")) := by
  induction rule generalizing name action with
  | nil => simp [processValSub,Harmless,parts,Value.isNone]
  | cons step rest ih =>
    obtain ⟨hstep,hrest⟩ := List.forall_mem_cons.mp hs
    cases hname : step.name with
    | some name' =>
      have hhead : step.isHead = true := by simp [ProcStep.isHead,hname]
      have hcomposes : ComposesFrom name action (step :: rest) ↔ ComposesFrom (some name') action rest := by
        simp [ComposesFrom,List.takeWhile_cons_of_pos hhead,hname]
      rw [hcomposes,parts_cons_of_isHead hhead,ruleName_cons,hname,Option.or_assoc,Option.some_or,
        ← ih hrest (some name') action haction]
      simp only [processValSub,hname]
    | none =>
      cases hact : step.action with
      | some act =>
        obtain rfl : act = "combine" := List.mem_singleton.mp (hstep act hact)
        have hhead : step.isHead = true := by simp [ProcStep.isHead,hact]
        have hcomposes : ComposesFrom name action (step :: rest) ↔ ComposesFrom name (some "combine") rest := by
          simp [ComposesFrom,List.takeWhile_cons_of_pos hhead,hname,hact]
        rw [hcomposes,parts_cons_of_isHead hhead,ruleName_cons,hname,Option.or_none,
          ← ih hrest name (some "combine") (by simp)]
        simp only [processValSub,hname,hact,supportedValsProcActions,List.mem_singleton,if_true]
      | none =>
        have hpart : step.isHead = false := by simp [ProcStep.isHead,hname,hact]
        have hstops : ∀ name' action', name' = none ∨ action' = none →
            processValSub py none name' action' .none (step :: rest) = .ok (name',.none) := by
          intro name' action' hmissing
          unfold processValSub
          rw [hname,hact]
          rcases hmissing with rfl | rfl
          · rfl
          · cases name' <;> rfl
        have htake : (step :: rest).takeWhile ProcStep.isHead = [] := List.takeWhile_cons_of_neg (by simp [hpart])
        cases name with
        | none =>
          rw [hstops none action (Or.inl rfl)]
          simp [Harmless,ComposesFrom,htake]
        | some name =>
          cases action with
          | none =>
            rw [hstops (some name) none (Or.inr rfl)]
            simp [Harmless,ComposesFrom,htake,Value.isNone]
          | some act =>
            obtain rfl := haction act rfl
            have hgiven : ComposesFrom (some name) (some "combine") (step :: rest) := ⟨Or.inl rfl,Or.inl rfl⟩
            rw [harmless_running hs,Option.or_some,Option.some.injEq]
            simp only [hgiven,true_implies,Value.isNone,true_and]
            exact ⟨fun ⟨hkey,htext⟩ part hmem => ⟨hkey part hmem,htext.symm.imp_left (fun h => h part hmem)⟩,
              fun hall => ⟨fun part hmem => (hall part hmem).1,by
                by_cases hempty : (ruleName (step :: rest)).getD name = ""
                · exact Or.inl hempty
                · exact Or.inr (fun part hmem => (hall part hmem).2.resolve_right hempty)⟩⟩

theorem fillValsProcOther_ok_iff {rules : List (List ProcStep)}
    (hs : ∀ rule ∈ rules, ∀ step ∈ rule, ∀ action ∈ step.action, action ∈ supportedValsProcActions) :
    fillValsProcOther py rules = .ok () ↔ ∀ rule ∈ rules, Idle rule := by
  induction rules with
  | nil => simp [fillValsProcOther]
  | cons rule rest ih =>
    obtain ⟨hrule,hrest⟩ := List.forall_mem_cons.mp hs
    have hidle : Harmless (processValSub py none none none .none rule) ↔ Idle rule := by
      rw [harmless_iff hrule none none (by simp),Option.or_none]
      rfl
    rw [fillValsProcOther,List.forall_mem_cons,← ih hrest,← hidle]
    unfold Harmless
    cases processValSub py none none none .none rule with
    | error e => simp
    | ok result =>
      obtain ⟨name,value⟩ := result
      cases name with
      | none => simp
      | some name =>
        simp only
        split
        · rename_i h
          simp [h]
        · rename_i h
          simp [h]

theorem applyEntryOther_ok_iff (hs : a.Supported) (other : Value) :
    (∃ u, applyEntryOther py a other = .ok u) ↔ Leaves a other := by
  unfold applyEntryOther
  constructor
  · rintro ⟨u,hu⟩
    split at hu
    · rename_i h
      exact ⟨h.1,h.2,(fillValsProcOther_ok_iff hs).mp hu⟩
    · cases hu
  · rintro ⟨hvals,hensure,hproc⟩
    rw [if_pos ⟨hvals,hensure⟩]
    exact ⟨(),(fillValsProcOther_ok_iff hs).mpr hproc⟩

theorem applyEntryTo_ok_iff (hs : a.Supported) (previous : Value) :
    (∃ filled, applyEntryTo py a previous entry = .ok filled) ↔
      (isObject previous = false → Leaves a previous) ∧ ∀ val ∈ a.vals, Holdable py entry val := by
  unfold applyEntryTo
  split
  · rw [exists_map_ok_iff,applyEntry_ok_iff hs]
    simp [isObject]
  · rename_i hother
    have hobject : isObject previous = false := by
      cases previous with
      | dict fields => exact absurd rfl (hother fields)
      | _ => rfl
    rw [exists_map_ok_iff,applyEntryOther_ok_iff hs]
    simp only [hobject,true_implies,iff_self_and]
    intro hleaves val hval
    rw [hleaves.vals] at hval
    cases hval

theorem takes_of_applyEntryTo {previous : Option Value} {filled : Value}
    (h : applyEntryTo py a (previous.getD (.dict [])) entry = .ok filled) : Takes a (some filled) ↔ Takes a previous := by
  have hobject : ∀ target : Fields, (applyEntry py a target entry).map Value.dict = .ok filled →
      isObject filled = true := by
    intro target htarget
    cases happly : applyEntry py a target entry with
    | error e => simp [happly,Except.map] at htarget
    | ok fields =>
      simp only [happly,Except.map,Except.ok.injEq] at htarget
      rw [← htarget]
      rfl
  cases previous with
  | none => simp [Takes,hobject [] h]
  | some previous =>
    rw [Option.getD_some] at h
    unfold applyEntryTo at h
    split at h
    · rename_i target
      have hfilled : isObject filled = true := hobject target h
      have htarget : isObject (.dict target) = true := rfl
      simp [Takes,hfilled,htarget]
    · cases hother : applyEntryOther py a previous with
      | error e => simp [hother,Except.map] at h
      | ok u =>
        simp only [hother,Except.map,Except.ok.injEq] at h
        rw [h]

theorem applySourceEntry_dict (keymap : Mapping Key Key) (p : Progress) (entry : Fields) :
    applySourceEntry py a keymap p (.dict entry) =
      if shouldSkipEntry entry a.only a.skip then .ok { p with anyValidEntry := true }
      else
        match resolveEntryUid a keymap entry with
        | .error e => .error e
        | .ok none => .ok { p with anyValidEntry := true }
        | .ok (some uid) => (applyEntryTo py a ((p.data.lookup uid).getD (.dict [])) entry).map (fun target =>
          { data := Mapping.set p.data uid target, seenUids := uid :: p.seenUids, anyValidEntry := true }) := rfl

/-- What keeps a row from raising. -/
def RowParses (py : Interpreter) (a : Spec) (keymap : Mapping Key Key) (data : Rows) (row : Value) : Prop :=
  ∀ entry, row = .dict entry → shouldSkipEntry entry a.only a.skip = false →
    (∃ uid, resolveEntryUid a keymap entry = .ok uid) ∧
      ∀ uid, resolveEntryUid a keymap entry = .ok (some uid) →
        Takes a (data.lookup uid) ∧ ∀ val ∈ a.vals, Holdable py entry val

theorem applySourceEntry_ok_iff (hs : a.Supported) (keymap : Mapping Key Key) (p : Progress) (row : Value) :
    (∃ q, applySourceEntry py a keymap p row = .ok q) ↔ RowParses py a keymap p.data row := by
  unfold applySourceEntry RowParses
  split
  · rename_i entry
    simp only [Value.dict.injEq,forall_eq']
    split
    · rename_i hskip
      simp [hskip]
    · rename_i hskip
      simp only [hskip,true_implies]
      cases huid : resolveEntryUid a keymap entry with
      | error e => simp
      | ok uid =>
        cases uid with
        | none => simp
        | some uid =>
          rw [exists_map_ok_iff,applyEntryTo_ok_iff hs]
          cases hprevious : p.data.lookup uid with
          | none => simp [Takes,hprevious,isObject]
          | some previous => simp [Takes,hprevious]
  · rename_i hrow
    simp only [Except.ok.injEq,exists_eq',true_iff]
    exact fun entry hentry => absurd hentry (hrow entry)

theorem takes_of_applySourceEntry {keymap : Mapping Key Key} {p q : Progress} {row : Value}
    (h : applySourceEntry py a keymap p row = .ok q) (uid : Key) :
    Takes a (q.data.lookup uid) ↔ Takes a (p.data.lookup uid) := by
  unfold applySourceEntry at h
  split at h
  · rename_i entry
    split at h
    · rw [← Except.ok.inj h]
    · split at h
      · cases h
      · rw [← Except.ok.inj h]
      · rename_i uid' _
        cases happly : applyEntryTo py a ((p.data.lookup uid').getD (.dict [])) entry with
        | error e => simp [happly,Except.map] at h
        | ok target =>
          simp only [happly,Except.map,Except.ok.injEq] at h
          rw [← h,Mapping.lookup_set]
          split
          · rename_i huid
            rw [huid]
            exact takes_of_applyEntryTo happly
          · rfl
  · rw [← Except.ok.inj h]

theorem applySourceEntries_ok_iff (hs : a.Supported) (keymap : Mapping Key Key) (p : Progress) (rows : List Value) :
    (∃ q, applySourceEntries py a keymap p rows = .ok q) ↔ ∀ row ∈ rows, RowParses py a keymap p.data row := by
  induction rows generalizing p with
  | nil => simp [applySourceEntries]
  | cons row rest ih =>
    rw [List.forall_mem_cons,← applySourceEntry_ok_iff hs keymap p]
    unfold applySourceEntries
    cases h : applySourceEntry py a keymap p row with
    | error e => simp
    | ok q =>
      have hrest : ∀ row, RowParses py a keymap q.data row ↔ RowParses py a keymap p.data row := fun row => by
        simp only [RowParses,takes_of_applySourceEntry h]
      simp [ih,hrest]

end Raise
end TruenasCE.ApiParser
