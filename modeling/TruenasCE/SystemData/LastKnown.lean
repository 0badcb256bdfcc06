import Mathlib.Algebra.Group.Int.Defs
import TruenasCE.Library.Dict
import TruenasCE.Library.Overlay

/-! # Last known values of the system

The coordinator merges each valid `system.info` answer and each answer of the statistics graphs
into the snapshot it has, so that a value TrueNAS left out keeps the one reported before. The
throughput table holds only the interfaces that TrueNAS reports when the statistics arrive.
-/
namespace TruenasCE.SystemData
open Library

/-- A frozen dataclass: each field has a value or is `None`. -/
abbrev Dataclass {φ : Type*} (value : φ → Type*) := ∀ field, Option (value field)

inductive InfoField
  | hostname
  | version
  | manufacturer
  | product
  | serial
  | physicalMemory
  | bootTime
  | uptimeSeconds
  | load1m
  | load5m
  | load15m
  | isVirtual
  deriving DecidableEq, Repr

inductive StatsField
  | cpuUsagePercent
  | cpuTemperature
  | memoryAvailable
  | memoryUsagePercent
  | arcSize
  | failedGraphs
  deriving DecidableEq, Repr

inductive TrafficField
  | rxKbps
  | txKbps
  deriving DecidableEq, Repr

variable {Flt Time Err : Type}

variable (Flt Time) in
abbrev InfoField.Value : InfoField → Type
  | .hostname | .version | .manufacturer | .product | .serial => String
  | .physicalMemory => ℤ
  | .bootTime => Time
  | .uptimeSeconds | .load1m | .load5m | .load15m => Flt
  | .isVirtual => Bool

variable (Flt Err) in
abbrev StatsField.Value : StatsField → Type
  | .cpuUsagePercent | .cpuTemperature | .memoryUsagePercent => Flt
  | .memoryAvailable | .arcSize => ℤ
  | .failedGraphs => Dict String Err

variable (Flt Time) in
abbrev SystemInfo := Dataclass (InfoField.Value Flt Time)

variable (Flt) in
abbrev InterfaceTraffic := Dataclass (fun _ : TrafficField => Flt)

def SystemInfo.physicalMemory (info : SystemInfo Flt Time) : Option ℤ := info .physicalMemory

variable (Flt Err) in
structure SystemStats where
  readings : Dataclass (StatsField.Value Flt Err)
  interfaces : Dict String (InterfaceTraffic Flt)

def keepKnown {φ : Type*} {value : φ → Type*} (previous : Option (Dataclass value)) (current : Dataclass value) :
    Dataclass value :=
  match previous with
  | none => current
  | some previous => fun field =>
    match current field with
    | none => previous field
    | some v => some v

theorem keepKnown_apply {φ : Type*} {value : φ → Type*} (previous : Option (Dataclass value))
    (current : Dataclass value) (field : φ) :
    keepKnown previous current field = (current field).or (previous.bind (fun p => p field)) := by
  cases previous with
  | none => simp [keepKnown]
  | some previous => cases h : current field <;> simp [keepKnown,h]

def retainKnownSystemInfo (previous : Option (SystemInfo Flt Time)) (current : SystemInfo Flt Time) :
    SystemInfo Flt Time :=
  keepKnown previous
    (if current.physicalMemory = some 0 then Function.update current .physicalMemory none else current)

def retainKnownSystemStats (previous : Option (SystemStats Flt Err)) (current : SystemStats Flt Err)
    (interfaceIds : List String) : SystemStats Flt Err :=
  let known : Dict String (InterfaceTraffic Flt) :=
    match previous with
    | none => ∅
    | some previous => previous.interfaces
  let interfaces := Dict.collect (fun x => if x.1 ∈ interfaceIds then some x.1 else none) (fun x => x.2) ∅ known.entries
  { readings := keepKnown (previous.map SystemStats.readings) current.readings,
    interfaces := Dict.collect (fun x => if x.1 ∈ interfaceIds then some x.1 else none)
      (fun x => keepKnown (known.lookup x.1) x.2) interfaces current.interfaces.entries }

variable (Flt Time Err) in
structure TrueNASData where
  info : Option (SystemInfo Flt Time)
  stats : Option (SystemStats Flt Err)

/-- A poll of `system.info` or of the graphs, with the answer if it is one that can be used. -/
inductive Poll (Flt Time Err : Type)
  | systeminfo (answer : Option (SystemInfo Flt Time))
  | systemstats (answer : Option (SystemStats Flt Err)) (interfaceIds : List String)

def getSysteminfo (s : TrueNASData Flt Time Err) (answer : Option (SystemInfo Flt Time)) :
    TrueNASData Flt Time Err :=
  match answer with
  | none => s
  | some systemInfo => { s with info := some (retainKnownSystemInfo s.info systemInfo) }

def getSystemstats (s : TrueNASData Flt Time Err) (answer : Option (SystemStats Flt Err))
    (interfaceIds : List String) : TrueNASData Flt Time Err :=
  match answer with
  | none => s
  | some stats => { s with stats := some (retainKnownSystemStats s.stats stats interfaceIds) }

def step (s : TrueNASData Flt Time Err) : Poll Flt Time Err → TrueNASData Flt Time Err
  | .systeminfo answer => getSysteminfo s answer
  | .systemstats answer interfaceIds => getSystemstats s answer interfaceIds

def systemData (polls : List (Poll Flt Time Err)) : TrueNASData Flt Time Err :=
  polls.foldl step ⟨none,none⟩

namespace Poll

/-- What a valid `system.info` answer says about a field. A memory of 0 is no value. -/
def infoSeen (field : InfoField) : Poll Flt Time Err → Option (field.Value Flt Time)
  | .systeminfo (some info) =>
    match field with
    | .physicalMemory => info.physicalMemory.filter (fun memory => memory ≠ 0)
    | field => info field
  | _ => none

def statsSeen (field : StatsField) : Poll Flt Time Err → Option (field.Value Flt Err)
  | .systemstats (some stats) _ => stats.readings field
  | _ => none

def trafficSeen (id : String) : Poll Flt Time Err → Option (InterfaceTraffic Flt)
  | .systemstats (some stats) _ => stats.interfaces.lookup id
  | _ => none

/-- The interfaces that TrueNAS reports at a merge of the statistics. -/
def interfaceIds : Poll Flt Time Err → Option (List String)
  | .systemstats (some _) interfaceIds => some interfaceIds
  | _ => none

/-- The interface is not absent from `interface_ids` in this poll. -/
def keeps (id : String) (p : Poll Flt Time Err) : Bool :=
  match p.interfaceIds with
  | none => true
  | some interfaceIds => id ∈ interfaceIds

theorem trafficSeen_eq_none {p : Poll Flt Time Err} (h : p.interfaceIds = none) (id : String) :
    p.trafficSeen id = none := by
  rcases p with answer | ⟨answer,ids⟩
  · cases answer <;> rfl
  · cases answer with
    | none => rfl
    | some stats => cases h

end Poll

namespace TrueNASData

def infoValue (s : TrueNASData Flt Time Err) (field : InfoField) : Option (field.Value Flt Time) :=
  s.info.bind (fun info => info field)

def statsValue (s : TrueNASData Flt Time Err) (field : StatsField) : Option (field.Value Flt Err) :=
  s.stats.bind (fun stats => stats.readings field)

def throughput (s : TrueNASData Flt Time Err) : Dict String (InterfaceTraffic Flt) :=
  match s.stats with
  | none => ∅
  | some stats => stats.interfaces

end TrueNASData

/-- The interfaces that TrueNAS reported at the last merge. -/
def reportedIds (polls : List (Poll Flt Time Err)) : List String := (lastSome Poll.interfaceIds polls).getD []

def sinceAbsent (id : String) (polls : List (Poll Flt Time Err)) : List (Poll Flt Time Err) :=
  polls.rtakeWhile (Poll.keeps id)

theorem withoutZeroMemory_apply (info : SystemInfo Flt Time) (field : InfoField) :
    (if info.physicalMemory = some 0 then Function.update info .physicalMemory none else info) field =
      (Poll.systeminfo (some info) : Poll Flt Time Err).infoSeen field := by
  by_cases hfield : field = .physicalMemory
  · subst hfield
    change _ = info.physicalMemory.filter (fun memory => memory ≠ 0)
    cases hmem : info.physicalMemory with
    | none => simpa [SystemInfo.physicalMemory] using hmem
    | some memory =>
      by_cases hzero : memory = 0
      · subst hzero
        rw [if_pos rfl,Function.update_self]
        rfl
      · rw [if_neg (by simp [hzero]),Option.filter_some_pos (by simp [hzero])]
        exact hmem
  · have hseen : (Poll.systeminfo (some info) : Poll Flt Time Err).infoSeen field = info field := by
      cases field with
      | physicalMemory => exact absurd rfl hfield
      | _ => rfl
    rw [hseen]
    split
    · exact Function.update_of_ne hfield _ _
    · rfl

variable (s : TrueNASData Flt Time Err) (p : Poll Flt Time Err)

theorem infoValue_step (field : InfoField) :
    (step s p).infoValue field = (p.infoSeen field).or (s.infoValue field) := by
  rcases p with answer | ⟨answer,ids⟩
  · cases answer with
    | none => rfl
    | some info =>
      have hmerged : (step s (.systeminfo (some info))).infoValue field = retainKnownSystemInfo s.info info field := rfl
      rw [hmerged,retainKnownSystemInfo,keepKnown_apply,withoutZeroMemory_apply]
      rfl
  · cases answer <;> rfl

theorem statsValue_step (field : StatsField) :
    (step s p).statsValue field = (p.statsSeen field).or (s.statsValue field) := by
  rcases p with answer | ⟨answer,ids⟩
  · cases answer <;> rfl
  · cases answer with
    | none => rfl
    | some stats =>
      have hmerged : (step s (.systemstats (some stats) ids)).statsValue field =
          keepKnown (s.stats.map SystemStats.readings) stats.readings field := rfl
      rw [hmerged,keepKnown_apply,Option.bind_map]
      rfl

theorem lookup_retainKnownSystemStats (previous : Option (SystemStats Flt Err)) (current : SystemStats Flt Err)
    (interfaceIds : List String) (id : String) :
    (retainKnownSystemStats previous current interfaceIds).interfaces.lookup id =
      if id ∈ interfaceIds then
        ((current.interfaces.lookup id).map (keepKnown (previous.bind (fun p => p.interfaces.lookup id)))).or
          (previous.bind (fun p => p.interfaces.lookup id))
      else none := by
  have hknown : (match previous with
      | none => (∅ : Dict String (InterfaceTraffic Flt))
      | some previous => previous.interfaces).lookup id = previous.bind (fun p => p.interfaces.lookup id) := by
    cases previous with
    | none => exact AList.lookup_empty id
    | some previous => rfl
  unfold retainKnownSystemStats
  simp only [Dict.lookup_collect_entries,hknown,AList.lookup_empty]
  split <;> simp

theorem throughput_lookup (id : String) : s.throughput.lookup id = s.stats.bind (fun p => p.interfaces.lookup id) := by
  cases h : s.stats with
  | none => rw [TrueNASData.throughput,h]; exact AList.lookup_empty id
  | some stats => rw [TrueNASData.throughput,h]; rfl

/-- A poll takes an absent interface out of the table. A snapshot puts a reported interface in. -/
theorem throughput_step (id : String) :
    (step s p).throughput.lookup id = if p.keeps id = true then
      ((p.trafficSeen id).map (keepKnown (s.throughput.lookup id))).or (s.throughput.lookup id) else none := by
  rcases p with answer | ⟨answer,ids⟩
  · cases answer <;> rfl
  · cases answer with
    | none => rfl
    | some stats =>
      have hmerged : (step s (.systemstats (some stats) ids)).throughput =
          (retainKnownSystemStats s.stats stats ids).interfaces := rfl
      rw [hmerged,lookup_retainKnownSystemStats,throughput_lookup]
      simp [Poll.keeps,Poll.interfaceIds,Poll.trafficSeen]

variable (polls : List (Poll Flt Time Err))

/-- The snapshot after the polls holds what was last seen. -/
structure LastKnown (polls : List (Poll Flt Time Err)) : Prop where
  info : ∀ field, (systemData polls).infoValue field = lastSome (Poll.infoSeen field) polls
  stats : ∀ field, (systemData polls).statsValue field = lastSome (Poll.statsSeen field) polls
  interfaces : ∀ id, id ∈ (systemData polls).throughput ↔
    id ∈ reportedIds polls ∧ ∃ p ∈ sinceAbsent id polls, p.trafficSeen id ≠ none
  traffic : ∀ id, ∀ traffic ∈ (systemData polls).throughput.lookup id, ∀ field,
    traffic field = lastSome (fun p => (p.trafficSeen id).bind (fun t => t field)) (sinceAbsent id polls)

theorem infoValue_systemData (field : InfoField) :
    (systemData polls).infoValue field = lastSome (Poll.infoSeen field) polls := by
  have hrun := foldl_eq_lastSome_rtakeWhile step (fun s => s.infoValue field) (Poll.infoSeen field) (fun _ => true)
    (fun s p _ => infoValue_step s p field) (fun _ _ h => absurd h (by simp)) (s := ⟨none,none⟩) rfl polls
  rwa [List.rtakeWhile_eq_self_iff.mpr (fun _ _ => rfl)] at hrun

theorem statsValue_systemData (field : StatsField) :
    (systemData polls).statsValue field = lastSome (Poll.statsSeen field) polls := by
  have hrun := foldl_eq_lastSome_rtakeWhile step (fun s => s.statsValue field) (Poll.statsSeen field) (fun _ => true)
    (fun s p _ => statsValue_step s p field) (fun _ _ h => absurd h (by simp)) (s := ⟨none,none⟩) rfl polls
  rwa [List.rtakeWhile_eq_self_iff.mpr (fun _ _ => rfl)] at hrun

/-- The table under a map of its entries, which the polls since the last absence decide. -/
theorem throughput_systemData {γ : Type*} (id : String) (g : InterfaceTraffic Flt → Option γ)
    (hg : ∀ previous current : _, g (keepKnown previous current) = (g current).or (previous.bind g)) :
    ((systemData polls).throughput.lookup id).bind g =
      lastSome (fun p => (p.trafficSeen id).bind g) (sinceAbsent id polls) := by
  refine foldl_eq_lastSome_rtakeWhile step (fun s => (s.throughput.lookup id).bind g) _ (Poll.keeps id) ?_ ?_ ?_ polls
  · intro s p hp
    rw [throughput_step,if_pos hp]
    cases p.trafficSeen id with
    | none => rfl
    | some current => simp [hg]
  · intro s p hp
    rw [throughput_step,if_neg (by simp [hp])]
    rfl
  · have hempty : (⟨none,none⟩ : TrueNASData Flt Time Err).throughput.lookup id = none := AList.lookup_empty id
    rw [hempty,Option.bind_none]

theorem mem_throughput_systemData (id : String) :
    id ∈ (systemData polls).throughput ↔ ∃ p ∈ sinceAbsent id polls, p.trafficSeen id ≠ none := by
  have htable := throughput_systemData polls id (fun _ => some ()) (fun previous _ => by cases previous <;> rfl)
  have hbind : ∀ o : Option (InterfaceTraffic Flt), o.bind (fun _ => some ()) = none ↔ o = none := by
    intro o
    cases o <;> simp
  have hseen : (systemData polls).throughput.lookup id = none ↔ ∀ p ∈ sinceAbsent id polls, p.trafficSeen id = none :=
    calc (systemData polls).throughput.lookup id = none
        ↔ ((systemData polls).throughput.lookup id).bind (fun _ => some ()) = none := (hbind _).symm
      _ ↔ lastSome (fun p => (p.trafficSeen id).bind (fun _ => some ())) (sinceAbsent id polls) = none := by rw [htable]
      _ ↔ ∀ p ∈ sinceAbsent id polls, p.trafficSeen id = none := by simp only [lastSome_eq_none_iff,hbind]
  rw [← not_iff_not,← AList.lookup_eq_none,hseen]
  simp

theorem reported_of_mem (id : String) (hid : id ∈ (systemData polls).throughput) : id ∈ reportedIds polls := by
  induction polls using List.reverseRecOn with
  | nil => cases hid
  | append_singleton polls p ih =>
    rw [← AList.lookup_isSome,systemData,List.foldl_append,List.foldl_cons,List.foldl_nil,← systemData,
      throughput_step] at hid
    rw [reportedIds,lastSome_concat]
    cases hids : p.interfaceIds with
    | some ids =>
      have hkeeps : p.keeps id = true := by
        by_contra hkeeps
        rw [if_neg hkeeps] at hid
        cases hid
      simpa [Poll.keeps,hids] using hkeeps
    | none =>
      rw [if_pos (by rw [Poll.keeps,hids]),Poll.trafficSeen_eq_none hids,Option.map_none,Option.none_or,
        AList.lookup_isSome] at hid
      exact ih hid

theorem last_known : LastKnown polls where
  info := infoValue_systemData polls
  stats := statsValue_systemData polls
  interfaces := by
    intro id
    have hmem := mem_throughput_systemData polls id
    exact ⟨fun h => ⟨reported_of_mem polls id h,hmem.mp h⟩,fun h => hmem.mpr h.2⟩
  traffic := by
    intro id traffic htraffic field
    have htable := throughput_systemData polls id (fun t => t field) (fun previous current =>
      keepKnown_apply previous current field)
    rwa [Option.mem_def.mp htraffic] at htable

/-- A snapshot with the throughput of `eth0`. -/
def eth0Stats (rx tx : Option ℕ) : SystemStats ℕ Unit where
  readings := fun _ => none
  interfaces := AList.singleton "eth0" (fun
    | .rxKbps => rx
    | .txKbps => tx)

-- the readings from before the interface vanished do not come back with it
example : ((@systemData ℕ Unit Unit [.systemstats (some (eth0Stats (some 1) (some 2))) ["eth0"],
    .systemstats (some (eth0Stats none none)) [],
    .systemstats (some (eth0Stats none (some 5))) ["eth0"]]).throughput.lookup "eth0").map (fun t =>
      (t .rxKbps,t .txKbps)) = some (none,some 5) := by decide

end TruenasCE.SystemData
