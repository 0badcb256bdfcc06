import Mathlib.Algebra.Group.Int.Defs
import Mathlib.Algebra.Group.Nat.Defs
import TruenasCE.ApiParser.Value
import TruenasCE.Library.Raising
import TruenasCE.Library.Transition

/-! # What the statistics of apps retain

The messages of the `app.stats` subscription are JSON of any shape. Their entries are taken into
`ds["app_stats"]` one after the other, and a prune removes the apps that are gone.
-/
namespace TruenasCE.AppStats.Retention
open Library ApiParser

abbrev Rows := Mapping String Fields

/-- What `float` makes of an int that is not too large, and of a text that is a number. -/
structure Floats where
  ofInt : ℤ → PyFloat
  ofStr : String → Option PyFloat

inductive Raised
  | typeError
  | valueError
  | overflowError
  | attributeError
  deriving DecidableEq, Repr

def floatOverflow : ℕ := 2 ^ 1024 - 2 ^ 970

def Floats.float (fl : Floats) : Value → Except Raised PyFloat
  | .bool b => .ok (.finite (if b then 1 else 0))
  | .int i => if floatOverflow ≤ i.natAbs then .error .overflowError else .ok (fl.ofInt i)
  | .float f => .ok f
  | .str s =>
    match fl.ofStr s with
    | some f => .ok f
    | none => .error .valueError
  | .none | .list _ | .dict _ | .datetime _ => .error .typeError

def Floats.coerceFloat (fl : Floats) : Value → Except Raised Value
  | .none => .ok .none
  | value =>
    match fl.float value with
    | .ok f => .ok (.float f)
    | .error .typeError => .ok .none
    | .error .valueError => .ok .none
    | .error raised => .error raised

/-- `name`, else `app_name` -/
def getAppIdentifier (app : Fields) : Option String :=
  match dictGet app "name" with
  | .str name => if name ≠ "" then some name else legacy
  | _ => legacy
where
  legacy : Option String :=
    match dictGet app "app_name" with
    | .str appName => if appName ≠ "" then some appName else none
    | _ => none

def hasInterface : Value → Bool
  | .dict net => (dictGet net "interface_name").truthy
  | _ => false

def filterAppNetworks : Value → List Value
  | .list networks => networks.filter hasInterface
  | _ => []

def interfaceName : Value → Value
  | .dict net => dictGet net "interface_name"
  | _ => .none

def staleStub (net : Value) : Value :=
  .dict [("interface_name",interfaceName net),("rx_bytes",.none),("tx_bytes",.none),("stale",.bool true)]

def networksOf (rows : Rows) (appName : String) : List Value :=
  filterAppNetworks (dictGet ((rows.lookup appName).getD []) "networks")

def staleAppNetworks (rows : Rows) (appName : String) : List Value := (networksOf rows appName).map staleStub

def keptNetworks (rows : Rows) (appName : String) (app : Fields) : List Value :=
  let networks := filterAppNetworks ((app.lookup "networks").getD (.list []))
  if networks.isEmpty then staleAppNetworks rows appName else networks

def appStatsRow (appName : String) (cpuUsage memory blkioRead blkioWrite : Value) (networks : List Value) : Fields :=
  [("app_name",.str appName),("cpu_usage",cpuUsage),("memory",memory),("blkio_read",blkioRead),
    ("blkio_write",blkioWrite),("networks",.list networks)]

def Floats.blkio (fl : Floats) (app : Fields) : Except Raised (Value × Value) :=
  match dictGet app "blkio" with
  | .dict blkio => do
    let read ← fl.coerceFloat (dictGet blkio "read")
    let write ← fl.coerceFloat (dictGet blkio "write")
    return (read,write)
  | _ => return (.none,.none)

def upsertAppStatsEntry (fl : Floats) (rows : Rows) : Value → Except Raised Rows
  | .dict app =>
    match getAppIdentifier app with
    | none => return rows
    | some appName => do
      let (blkioRead,blkioWrite) ← fl.blkio app
      let networks := keptNetworks rows appName app
      let cpuUsage ← fl.coerceFloat (dictGet app "cpu_usage")
      let memory ← fl.coerceFloat (dictGet app "memory")
      return Mapping.set rows appName (appStatsRow appName cpuUsage memory blkioRead blkioWrite networks)
  | _ => return rows

def unwrapAppStatsMessage (msg : Fields) : Option Fields :=
  match (dictGet msg "method").eq (.str "collection_update"),dictGet msg "params" with
  | true,.dict params => if isList (dictGet params "fields") then some params else whole
  | _,_ => whole
where
  isList : Value → Bool
    | .list _ => true
    | _ => false
  whole : Option Fields := if isList (dictGet msg "fields") then some msg else none

def entriesOf (msg : Fields) : List Value :=
  match (unwrapAppStatsMessage msg).map (fun params => dictGet params "fields") with
  | some (.list fieldsList) => fieldsList
  | _ => []

inductive Effect
  | entry (app : Value)
  | prune (apps : Mapping String Value)
  | clear

structure State where
  app : Mapping String Value
  appStats : Rows
  log : List Effect

namespace State
variable (fl : Floats) (s : State)

/-- The loop over the entries of a message, and the exception it ends with. -/
def processEntries (s : State) : List Value → State × Option Raised
  | [] => (s,none)
  | app :: rest =>
    match upsertAppStatsEntry fl s.appStats app with
    | .ok rows => processEntries { s with appStats := rows, log := .entry app :: s.log } rest
    | .error raised => (s,some raised)

/-- A message that is not a dict has no `get`. -/
def processAppStatsMessages (s : State) : List Value → State × Option Raised
  | [] => (s,none)
  | .dict msg :: rest =>
    match s.processEntries fl (entriesOf msg) with
    | (t,none) => processAppStatsMessages t rest
    | (t,some raised) => (t,some raised)
  | _ :: _ => (s,some .attributeError)

end State

def collectCurrentAppNames (apps : Mapping String Value) : List String := apps.filterMap (fun row =>
  match row.2 with
  | .dict vals => getAppIdentifier vals
  | _ => none)

namespace State
variable (fl : Floats) (s : State)

def pruneStaleAppStats : State :=
  { s with
    appStats := Mapping.retain s.appStats (fun name => decide (name ∈ collectCurrentAppNames s.app))
    log := .prune s.app :: s.log }

def getAppStats (monitored connected : Bool) (messages : Option (List Value)) : State × Option Raised :=
  if !monitored then ({ s with appStats := [], log := .clear :: s.log },none)
  else if !connected then (s,none)
  else if s.app.isEmpty then (s.pruneStaleAppStats,none)
  else
    match messages with
    | none => (s,none)
    | some messages =>
      match s.processAppStatsMessages fl messages with
      | (t,none) => (t.pruneStaleAppStats,none)
      | (t,some raised) => (t,some raised)

end State

inductive Event
  | refreshApp (apps : Mapping String Value)
  | getAppStats (connected : Bool) (messages : Option (List Value))

def step (fl : Floats) (monitored : Bool) (s : State) : Event → State
  | .refreshApp apps => { s with app := apps }
  | .getAppStats connected messages => (s.getAppStats fl monitored connected messages).1

def lifetime (fl : Floats) (monitored : Bool) : System State Event where
  init s := s = ⟨[],[],[]⟩
  step s e := some (step fl monitored s e)

/-- A number as it is stored: a float, or `None` for what is none. -/
def Floats.number (fl : Floats) (value : Value) : Value :=
  match fl.float value with
  | .ok f => .float f
  | .error _ => .none

def TooLarge : Value → Prop
  | .int i => floatOverflow ≤ i.natAbs
  | _ => False

def about : Value → Option (String × Fields)
  | .dict app => (getAppIdentifier app).map (fun appName => (appName,app))
  | _ => none

def blkioField (app : Fields) (name : String) : Value :=
  match dictGet app "blkio" with
  | .dict blkio => dictGet blkio name
  | _ => .none

def numbers (app : Fields) : List Value :=
  [blkioField app "read",blkioField app "write",dictGet app "cpu_usage",dictGet app "memory"]

def Convertible (entry : Value) : Prop := ∀ p ∈ about entry, ∀ value ∈ numbers p.2, ¬ TooLarge value

/-- A message is an object without an int that is too large for a float. -/
def Acceptable (msg : Value) : Prop := ∃ fields, msg = .dict fields ∧ ∀ entry ∈ entriesOf fields, Convertible entry

def interfaces (nets : List Value) : List Value := nets.map interfaceName

/-- What the entry last taken in about the app says, until the app is removed. -/
def lastSaid {α : Type*} (told : Fields → Option α) (appName : String) : List Effect → Option α
  | [] => none
  | .entry entry :: past =>
    ((about entry).bind (fun p => if p.1 = appName then told p.2 else none)).or (lastSaid told appName past)
  | .prune apps :: past => if appName ∈ collectCurrentAppNames apps then lastSaid told appName past else none
  | .clear :: _ => none

def reported (app : Fields) : Option (List Value) :=
  let nets := filterAppNetworks ((app.lookup "networks").getD (.list []))
  if nets.isEmpty then none else some (interfaces nets)

def Stores (fl : Floats) (app row : Fields) : Prop :=
  row.lookup "cpu_usage" = some (fl.number (dictGet app "cpu_usage")) ∧
    row.lookup "memory" = some (fl.number (dictGet app "memory")) ∧
    row.lookup "blkio_read" = some (fl.number (blkioField app "read")) ∧
    row.lookup "blkio_write" = some (fl.number (blkioField app "write"))

/-- The keys are names, each row of networks has an interface, the interfaces of an app are those it reported
last, the numbers are those of its last entry, and a prune has left listed apps only. -/
structure Retained (fl : Floats) (s : State) : Prop where
  keys : ∀ name ∈ Mapping.keys s.appStats, name ≠ ""
  networks : ∀ name row, s.appStats.lookup name = some row → ∃ nets, row.lookup "networks" = some (.list nets) ∧
    ∀ net ∈ nets, hasInterface net = true
  interfaces : ∀ name, interfaces (networksOf s.appStats name) = (lastSaid reported name s.log).getD []
  numbers : ∀ name row, s.appStats.lookup name = some row → ∃ app, lastSaid some name s.log = some app ∧ Stores fl app row
  pruned : ∀ apps past, s.log = .prune apps :: past → ∀ name ∈ Mapping.keys s.appStats, name ∈ collectCurrentAppNames apps

def entriesIn : Value → List Value
  | .dict fields => entriesOf fields
  | _ => []

/-- The messages are processed without an exception, and with all of their entries. -/
def TakesIn (fl : Floats) (s : State) (messages : List Value) : Prop :=
  (s.processAppStatsMessages fl messages).2 = none ∧ (s.processAppStatsMessages fl messages).1.log =
    ((messages.flatMap entriesIn).map Effect.entry).reverse ++ s.log

section Entry
variable {fl : Floats} {rows rows' : Rows} {app : Fields} {appName : String} {entry value : Value}

theorem coerceFloat_eq (fl : Floats) (value : Value) : (TooLarge value ∧ fl.coerceFloat value = .error .overflowError) ∨
    (¬ TooLarge value ∧ fl.coerceFloat value = .ok (fl.number value)) := by
  cases value with
  | int i =>
    by_cases hi : floatOverflow ≤ i.natAbs
    · exact Or.inl ⟨hi,by simp [Floats.coerceFloat,Floats.float,hi]⟩
    · exact Or.inr ⟨hi,by simp [Floats.coerceFloat,Floats.float,Floats.number,hi]⟩
  | str s =>
    refine Or.inr ⟨id,?_⟩
    cases hs : fl.ofStr s <;> simp [Floats.coerceFloat,Floats.float,Floats.number,hs]
  | none | bool | float | list | dict | datetime => exact Or.inr ⟨id,rfl⟩

theorem coerceFloat_of_not (h : ¬ TooLarge value) : fl.coerceFloat value = .ok (fl.number value) := by
  rcases coerceFloat_eq fl value with ⟨hlarge,_⟩ | ⟨_,heq⟩
  · exact absurd hlarge h
  · exact heq

theorem coerceFloat_of_tooLarge (h : TooLarge value) : fl.coerceFloat value = .error .overflowError := by
  rcases coerceFloat_eq fl value with ⟨_,heq⟩ | ⟨hnot,_⟩
  · exact heq
  · exact absurd h hnot

theorem blkio_of_not (h : ∀ value ∈ numbers app, ¬ TooLarge value) :
    fl.blkio app = .ok (fl.number (blkioField app "read"),fl.number (blkioField app "write")) := by
  have hread := h _ (List.mem_cons_self ..)
  have hwrite := h _ (List.mem_cons_of_mem _ (List.mem_cons_self ..))
  unfold Floats.blkio
  unfold blkioField at hread hwrite ⊢
  split
  · rename_i blkio hblkio
    simp only [hblkio] at hread hwrite
    rw [coerceFloat_of_not hread,coerceFloat_of_not hwrite]
    rfl
  · rfl

def rowOf (fl : Floats) (rows : Rows) (appName : String) (app : Fields) : Fields :=
  appStatsRow appName (fl.number (dictGet app "cpu_usage")) (fl.number (dictGet app "memory"))
    (fl.number (blkioField app "read")) (fl.number (blkioField app "write")) (keptNetworks rows appName app)

theorem upsert_of_about (ha : about entry = some (appName,app)) (h : ∀ value ∈ numbers app, ¬ TooLarge value) :
    upsertAppStatsEntry fl rows entry = .ok (Mapping.set rows appName (rowOf fl rows appName app)) := by
  unfold about at ha
  split at ha
  · rename_i fields
    obtain ⟨name,hname,heq⟩ := Option.map_eq_some_iff.mp ha
    obtain ⟨rfl,rfl⟩ := Prod.mk.inj heq
    have hcpu := h (dictGet fields "cpu_usage") (by simp [numbers])
    have hmemory := h (dictGet fields "memory") (by simp [numbers])
    simp only [upsertAppStatsEntry,hname,blkio_of_not h,coerceFloat_of_not hcpu,coerceFloat_of_not hmemory]
    rfl
  · cases ha

theorem upsert_of_none (ha : about entry = none) : upsertAppStatsEntry fl rows entry = .ok rows := by
  unfold about at ha
  split at ha
  · rename_i fields
    simp only [upsertAppStatsEntry,Option.map_eq_none_iff.mp ha]
    rfl
  · rename_i hno
    cases entry with
    | dict fields => exact absurd rfl (hno fields)
    | none | bool | int | float | str | list | datetime => rfl

theorem not_tooLarge_of_ok {stored : Value} (h : fl.coerceFloat value = .ok stored) : ¬ TooLarge value := by
  intro hlarge
  rw [coerceFloat_of_tooLarge hlarge] at h
  cases h

theorem not_tooLarge_of_blkio {p : Value × Value} (h : fl.blkio app = .ok p) :
    ¬ TooLarge (blkioField app "read") ∧ ¬ TooLarge (blkioField app "write") := by
  unfold Floats.blkio at h
  unfold blkioField
  split at h
  · obtain ⟨_,hread,h⟩ := exists_of_bind_ok h
    obtain ⟨_,hwrite,_⟩ := exists_of_bind_ok h
    exact ⟨not_tooLarge_of_ok hread,not_tooLarge_of_ok hwrite⟩
  · exact ⟨id,id⟩

theorem convertible_of_upsert (h : upsertAppStatsEntry fl rows entry = .ok rows') : Convertible entry := by
  rintro ⟨appName,app⟩ ha value hv
  unfold about at ha
  split at ha
  · rename_i fields
    obtain ⟨name,hname,heq⟩ := Option.map_eq_some_iff.mp ha
    obtain ⟨rfl,rfl⟩ := Prod.mk.inj heq
    simp only [upsertAppStatsEntry,hname] at h
    obtain ⟨_,hblkio,h⟩ := exists_of_bind_ok h
    obtain ⟨_,hcpu,h⟩ := exists_of_bind_ok h
    obtain ⟨_,hmemory,_⟩ := exists_of_bind_ok h
    simp only [numbers,List.mem_cons,List.not_mem_nil,or_false] at hv
    rcases hv with rfl | rfl | rfl | rfl
    · exact (not_tooLarge_of_blkio hblkio).1
    · exact (not_tooLarge_of_blkio hblkio).2
    · exact not_tooLarge_of_ok hcpu
    · exact not_tooLarge_of_ok hmemory
  · cases ha

theorem upsert_cases (h : upsertAppStatsEntry fl rows entry = .ok rows') : (about entry = none ∧ rows' = rows) ∨
    ∃ appName app, about entry = some (appName,app) ∧ rows' = Mapping.set rows appName (rowOf fl rows appName app) := by
  cases ha : about entry with
  | none =>
    rw [upsert_of_none ha] at h
    exact Or.inl ⟨rfl,(Except.ok.inj h).symm⟩
  | some p =>
    rw [upsert_of_about ha (convertible_of_upsert h p ha)] at h
    exact Or.inr ⟨p.1,p.2,rfl,(Except.ok.inj h).symm⟩

theorem exists_upsert_iff : (∃ rows', upsertAppStatsEntry fl rows entry = .ok rows') ↔ Convertible entry := by
  refine ⟨fun ⟨_,h⟩ => convertible_of_upsert h,fun h => ?_⟩
  cases ha : about entry with
  | none => exact ⟨rows,upsert_of_none ha⟩
  | some p => exact ⟨_,upsert_of_about ha (h p ha)⟩

theorem appName_ne_empty (h : getAppIdentifier app = some appName) : appName ≠ "" := by
  unfold getAppIdentifier at h
  have hlegacy : getAppIdentifier.legacy app = some appName → appName ≠ "" := by
    intro hl
    unfold getAppIdentifier.legacy at hl
    split at hl
    · split at hl
      · rename_i hne
        cases hl
        exact hne
      · cases hl
    · cases hl
  split at h
  · split at h
    · rename_i hne
      cases h
      exact hne
    · exact hlegacy h
  · exact hlegacy h

theorem appName_of_about (h : about entry = some (appName,app)) : appName ≠ "" := by
  unfold about at h
  split at h
  · obtain ⟨name,hname,heq⟩ := Option.map_eq_some_iff.mp h
    cases heq
    exact appName_ne_empty hname
  · cases h

end Entry

section Networks
variable {rows : Rows} {app : Fields} {appName name : String} {net : Value}

theorem hasInterface_staleStub (h : hasInterface net = true) : hasInterface (staleStub net) = true := by
  cases net with
  | dict fields => exact h
  | none | bool | int | float | str | list | datetime => cases h

theorem hasInterface_of_filter {networks : Value} (h : net ∈ filterAppNetworks networks) : hasInterface net = true := by
  unfold filterAppNetworks at h
  split at h
  · exact (List.mem_filter.mp h).2
  · cases h

theorem hasInterface_of_kept (h : net ∈ keptNetworks rows appName app) : hasInterface net = true := by
  unfold keptNetworks at h
  simp only at h
  split at h
  · obtain ⟨old,hold,rfl⟩ := List.mem_map.mp h
    exact hasInterface_staleStub (hasInterface_of_filter hold)
  · exact hasInterface_of_filter h

theorem interfaces_keptNetworks (rows : Rows) (appName : String) (app : Fields) :
    interfaces (keptNetworks rows appName app) = (reported app).getD (interfaces (networksOf rows appName)) := by
  unfold keptNetworks reported
  simp only
  split
  · rw [Option.getD_none,interfaces,staleAppNetworks,List.map_map]
    rfl
  · rfl

theorem filterAppNetworks_of_all {nets : List Value} (h : ∀ net ∈ nets, hasInterface net = true) :
    filterAppNetworks (.list nets) = nets := List.filter_eq_self.mpr h

theorem networksOf_set_self (fl : Floats) : networksOf (Mapping.set rows appName (rowOf fl rows appName app)) appName =
    keptNetworks rows appName app := by
  rw [networksOf,Mapping.lookup_set_self,Option.getD_some]
  exact filterAppNetworks_of_all (fun net hnet => hasInterface_of_kept hnet)

theorem networksOf_set_of_ne {row : Fields} (h : name ≠ appName) : networksOf (Mapping.set rows appName row) name =
    networksOf rows name := by
  rw [networksOf,Mapping.lookup_set_of_ne h,networksOf]

end Networks

section Steps
variable {fl : Floats} {s : State} {rows : Rows} {entry : Value}

theorem retained_init (fl : Floats) : Retained fl ⟨[],[],[]⟩ where
  keys _ h := absurd h List.not_mem_nil
  networks _ _ h := absurd h (Option.some_ne_none _).symm
  interfaces _ := rfl
  numbers _ _ h := absurd h (Option.some_ne_none _).symm
  pruned _ _ h := absurd h (List.cons_ne_nil _ _).symm

theorem stores_rowOf (fl : Floats) (rows : Rows) (appName : String) (app : Fields) :
    Stores fl app (rowOf fl rows appName app) := ⟨rfl,rfl,rfl,rfl⟩

theorem lastSaid_of_none {α : Type*} {told : Fields → Option α} {past : List Effect} {name : String}
    (ha : about entry = none) : lastSaid told name (.entry entry :: past) = lastSaid told name past := by
  rw [lastSaid,ha]
  rfl

theorem lastSaid_self {α : Type*} {told : Fields → Option α} {past : List Effect} {appName : String} {app : Fields}
    (ha : about entry = some (appName,app)) :
    lastSaid told appName (.entry entry :: past) = (told app).or (lastSaid told appName past) := by
  rw [lastSaid,ha,Option.bind_some,if_pos rfl]

theorem lastSaid_of_ne {α : Type*} {told : Fields → Option α} {past : List Effect} {appName name : String} {app : Fields}
    (ha : about entry = some (appName,app)) (hne : name ≠ appName) :
    lastSaid told name (.entry entry :: past) = lastSaid told name past := by
  rw [lastSaid,ha,Option.bind_some,if_neg (fun h => hne h.symm),Option.none_or]

theorem getD_or {α : Type*} (a b : Option α) (d : α) : (a.or b).getD d = a.getD (b.getD d) := by
  cases a with
  | none => rfl
  | some _ => rfl

theorem Retained.takeEntry (hs : Retained fl s) (h : upsertAppStatsEntry fl s.appStats entry = .ok rows) :
    Retained fl { s with appStats := rows, log := .entry entry :: s.log } := by
  rcases upsert_cases h with ⟨ha,rfl⟩ | ⟨appName,app,ha,rfl⟩
  · refine ⟨hs.keys,hs.networks,fun name => ?_,fun name row hrow => ?_,fun _ _ heq => ?_⟩
    · rw [lastSaid_of_none ha]
      exact hs.interfaces name
    · rw [lastSaid_of_none ha]
      exact hs.numbers name row hrow
    · cases heq
  · refine ⟨fun name hname => ?_,fun name row hrow => ?_,fun name => ?_,fun name row hrow => ?_,fun _ _ heq => ?_⟩
    · rw [Mapping.mem_keys_iff,Mapping.lookup_set] at hname
      split at hname
      · rename_i heq
        rw [heq]
        exact appName_of_about ha
      · exact hs.keys name (Mapping.mem_keys_iff.mpr hname)
    · rw [Mapping.lookup_set] at hrow
      split at hrow
      · cases hrow
        exact ⟨_,rfl,fun net hnet => hasInterface_of_kept hnet⟩
      · exact hs.networks name row hrow
    · by_cases heq : name = appName
      · rw [heq,networksOf_set_self,interfaces_keptNetworks,lastSaid_self ha,getD_or,hs.interfaces appName]
      · rw [networksOf_set_of_ne heq,lastSaid_of_ne ha heq]
        exact hs.interfaces name
    · rw [Mapping.lookup_set] at hrow
      split at hrow
      · rename_i heq
        cases hrow
        rw [heq,lastSaid_self ha]
        exact ⟨app,rfl,stores_rowOf fl s.appStats appName app⟩
      · rename_i hne
        rw [lastSaid_of_ne ha hne]
        exact hs.numbers name row hrow
    · cases heq

theorem lookup_prune {name : String} : s.pruneStaleAppStats.appStats.lookup name =
    if name ∈ collectCurrentAppNames s.app then s.appStats.lookup name else none := by
  unfold State.pruneStaleAppStats
  rw [Mapping.lookup_retain]
  simp only [decide_eq_true_eq]

theorem Retained.prune (hs : Retained fl s) : Retained fl s.pruneStaleAppStats where
  keys name hname := by
    rw [Mapping.mem_keys_iff,lookup_prune] at hname
    split at hname
    · exact hs.keys name (Mapping.mem_keys_iff.mpr hname)
    · cases hname
  networks name row hrow := by
    rw [lookup_prune] at hrow
    split at hrow
    · exact hs.networks name row hrow
    · cases hrow
  interfaces name := by
    rw [networksOf,lookup_prune]
    simp only [State.pruneStaleAppStats,lastSaid]
    split
    · exact hs.interfaces name
    · rfl
  numbers name row hrow := by
    rw [lookup_prune] at hrow
    simp only [State.pruneStaleAppStats,lastSaid]
    split at hrow
    · rename_i hmem
      rw [if_pos hmem]
      exact hs.numbers name row hrow
    · cases hrow
  pruned apps past heq name hname := by
    cases heq
    rw [Mapping.mem_keys_iff,lookup_prune] at hname
    split at hname
    · assumption
    · cases hname

theorem Retained.clear (fl : Floats) (s : State) : Retained fl { s with appStats := [], log := .clear :: s.log } where
  keys _ h := absurd h List.not_mem_nil
  networks _ _ h := absurd h (Option.some_ne_none _).symm
  interfaces _ := rfl
  numbers _ _ h := absurd h (Option.some_ne_none _).symm
  pruned _ _ h := nomatch h

theorem Retained.refreshApp (hs : Retained fl s) (apps : Mapping String Value) : Retained fl { s with app := apps } :=
  ⟨hs.keys,hs.networks,hs.interfaces,hs.numbers,hs.pruned⟩

end Steps

section Messages
variable {fl : Floats} {s : State}

theorem Retained.processEntries (hs : Retained fl s) (entries : List Value) : Retained fl (s.processEntries fl entries).1 := by
  induction entries generalizing s with
  | nil => exact hs
  | cons entry rest ih =>
    unfold State.processEntries
    cases hu : upsertAppStatsEntry fl s.appStats entry with
    | error raised => exact hs
    | ok rows => exact ih (hs.takeEntry hu)

theorem Retained.processAppStatsMessages (hs : Retained fl s) (messages : List Value) :
    Retained fl (s.processAppStatsMessages fl messages).1 := by
  induction messages generalizing s with
  | nil => exact hs
  | cons msg rest ih =>
    cases msg with
    | dict fields =>
      have hentries := hs.processEntries (entriesOf fields)
      unfold State.processAppStatsMessages
      cases hp : s.processEntries fl (entriesOf fields) with
      | mk t raised =>
        rw [hp] at hentries
        cases raised with
        | none => exact ih hentries
        | some raised => exact hentries
    | none | bool | int | float | str | list | datetime => exact hs

/-- The loop over the entries ends early exactly at a number that is too large. -/
theorem processEntries_eq_none_iff (fl : Floats) (s : State) (entries : List Value) :
    (s.processEntries fl entries).2 = none ↔ ∀ entry ∈ entries, Convertible entry := by
  induction entries generalizing s with
  | nil => exact ⟨fun _ _ h => absurd h List.not_mem_nil,fun _ => rfl⟩
  | cons entry rest ih =>
    have hupsert : (∃ rows', upsertAppStatsEntry fl s.appStats entry = .ok rows') ↔ Convertible entry := exists_upsert_iff
    rw [List.forall_mem_cons,← hupsert]
    unfold State.processEntries
    cases hu : upsertAppStatsEntry fl s.appStats entry with
    | error raised => simp
    | ok rows => simp [ih]

theorem log_processEntries {entries : List Value} (h : (s.processEntries fl entries).2 = none) :
    (s.processEntries fl entries).1.log = (entries.map Effect.entry).reverse ++ s.log := by
  induction entries generalizing s with
  | nil => rfl
  | cons entry rest ih =>
    unfold State.processEntries at h ⊢
    cases hu : upsertAppStatsEntry fl s.appStats entry with
    | error raised => simp [hu] at h
    | ok rows =>
      simp only [hu] at h ⊢
      rw [ih h]
      simp

theorem processAppStatsMessages_dict {fields : Fields} {rest : List Value}
    (h : (s.processEntries fl (entriesOf fields)).2 = none) : s.processAppStatsMessages fl (.dict fields :: rest) =
      (s.processEntries fl (entriesOf fields)).1.processAppStatsMessages fl rest := by
  rw [State.processAppStatsMessages]
  cases hp : s.processEntries fl (entriesOf fields) with
  | mk t raised =>
    rw [hp] at h
    cases h
    rfl

theorem raised_of_processEntries {fields : Fields} {rest : List Value}
    (h : (s.processEntries fl (entriesOf fields)).2 ≠ none) : (s.processAppStatsMessages fl (.dict fields :: rest)).2 ≠ none := by
  rw [State.processAppStatsMessages]
  cases hp : s.processEntries fl (entriesOf fields) with
  | mk t raised =>
    rw [hp] at h
    cases raised with
    | none => exact absurd rfl h
    | some raised => exact Option.some_ne_none raised

theorem acceptable_dict_iff {fields : Fields} : Acceptable (.dict fields) ↔
    ∀ entry ∈ entriesOf fields, Convertible entry := by
  constructor
  · rintro ⟨_,heq,h⟩
    cases heq
    exact h
  · exact fun h => ⟨fields,rfl,h⟩

theorem not_acceptable_of_ne {msg : Value} (h : ∀ fields, msg ≠ .dict fields) : ¬ Acceptable msg :=
  fun ⟨fields,heq,_⟩ => h fields heq

theorem takesIn_nil (fl : Floats) (s : State) : TakesIn fl s [] := ⟨rfl,rfl⟩

theorem takesIn_cons_iff {msg : Value} {rest : List Value} (ih : ∀ t, TakesIn fl t rest ↔ ∀ msg ∈ rest, Acceptable msg) :
    TakesIn fl s (msg :: rest) ↔ Acceptable msg ∧ ∀ msg ∈ rest, Acceptable msg := by
  cases msg with
  | dict fields =>
    rw [acceptable_dict_iff,← processEntries_eq_none_iff fl s]
    by_cases hp : (s.processEntries fl (entriesOf fields)).2 = none
    · rw [← ih (s.processEntries fl (entriesOf fields)).1]
      unfold TakesIn
      rw [processAppStatsMessages_dict hp,log_processEntries hp]
      simp [hp,entriesIn]
    · exact ⟨fun h => absurd h.1 (raised_of_processEntries hp),fun h => absurd h.1 hp⟩
  | none | bool | int | float | str | list | datetime =>
    exact ⟨fun h => absurd h.1 (Option.some_ne_none _),
      fun h => absurd h.1 (not_acceptable_of_ne (fun _ => nofun))⟩

theorem takesIn_iff (fl : Floats) (s : State) (messages : List Value) :
    TakesIn fl s messages ↔ ∀ msg ∈ messages, Acceptable msg := by
  induction messages generalizing s with
  | nil => exact ⟨fun _ _ h => absurd h List.not_mem_nil,fun _ => takesIn_nil fl s⟩
  | cons msg rest ih => rw [List.forall_mem_cons,takesIn_cons_iff ih]

end Messages

section Lifetimes
variable {fl : Floats} {monitored : Bool} {s : State}

theorem Retained.getAppStats (hs : Retained fl s) (monitored connected : Bool) (messages : Option (List Value)) :
    Retained fl (s.getAppStats fl monitored connected messages).1 := by
  unfold State.getAppStats
  split
  · exact Retained.clear fl s
  split
  · exact hs
  split
  · exact hs.prune
  cases messages with
  | none => exact hs
  | some messages =>
    have hmessages := hs.processAppStatsMessages messages
    cases hp : s.processAppStatsMessages fl messages with
    | mk t raised =>
      simp only [hp] at hmessages ⊢
      cases raised with
      | none => exact hmessages.prune
      | some raised => exact hmessages

theorem Retained.step (hs : Retained fl s) (monitored : Bool) (event : Event) : Retained fl (step fl monitored s event) := by
  cases event with
  | refreshApp apps => exact hs.refreshApp apps
  | getAppStats connected messages => exact hs.getAppStats monitored connected messages

theorem retained_of_reachable (hs : (lifetime fl monitored).Reachable s) : Retained fl s := by
  refine hs.invariant ?_ ?_
  · rintro s rfl
    exact retained_init fl
  · intro s event t hs _ hstep
    cases hstep
    exact hs.step monitored event

end Lifetimes

/-- `float` on the ints below 2^53 and on texts that are no numbers. -/
def exactFloats : Floats := ⟨fun i => .finite i,fun _ => none⟩

def dbMessage (cpuUsage : Value) : Value := .dict [("fields",.list [.dict [("app_name",.str "db"),("cpu_usage",cpuUsage)]])]

end TruenasCE.AppStats.Retention
