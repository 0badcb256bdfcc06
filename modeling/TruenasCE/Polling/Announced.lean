import TruenasCE.ApiParser.Keyed
import TruenasCE.Polling.Coordinator

/-! # What the log of the polls tells

Each matter has a flag that says whether its last answer was of use, and lines that tell of the changes.
-/
namespace TruenasCE.Polling
open Library SystemData
open ApiParser (Fields Value Interpreter)

/-- What the log warns of once, until it has recovered. -/
inductive Matter
  | systemInfo
  | interfaceQuery
  | version
  | graph (name : String)
  deriving DecidableEq

variable {Flt Time Err : Type}

def Line.edge : Matter → Line Err → Option Edge
  | .systemInfo,.infoMalformed => some .raised
  | .systemInfo,.infoRecovered => some .cleared
  | .interfaceQuery,.interfaceMalformed => some .raised
  | .interfaceQuery,.interfaceNoUsableEntry => some .raised
  | .interfaceQuery,.interfaceRecovered => some .cleared
  | .version,.versionUnknown _ _ => some .raised
  | .version,.versionRecovered _ => some .cleared
  | .graph name,.graphsFailed graphs _ => if name ∈ graphs then some .raised else none
  | .graph name,.graphsRecovered graphs => if name ∈ graphs then some .cleared else none
  | _,_ => none

def Coordinator.flag (s : Coordinator Flt Time Err) : Matter → Bool
  | .systemInfo => s.jobs.marks.systemInfoStale
  | .interfaceQuery => s.jobs.marks.interfaceStale
  | .version => s.versionParseWarned
  | .graph name => name ∈ s.staleGraphsLogged

def Coordinator.lines (s : Coordinator Flt Time Err) (matter : Matter) : List Edge := s.log.filterMap (Line.edge matter)

def Seen.named : Seen → Option (Dict String NetworkInterface)
  | .interfaces (some answer) => if answer.keys = [] then none else some answer
  | _ => none

def knownInterfaces (past : List Seen) : Option (Dict String NetworkInterface) := past.findSome? Seen.named

/-- An answer of `interface.query` is of no use if it is malformed, or empty when interfaces are known. -/
def unusable (older : List Seen) : Option (Dict String NetworkInterface) → Bool
  | none => true
  | some interfaces => interfaces.keys = [] ∧ (knownInterfaces older).isSome

/-- The version that an answer of `system.info` names, `unknown` for none. -/
def Seen.reported : Seen → Option String
  | .systemInfo (some version) _ => some (if version.getD "" = "" then "unknown" else version.getD "")
  | _ => none

/-- The version that the last answer of `system.info` named. -/
def reportedVersion (past : List Seen) : Option String := past.findSome? Seen.reported

def Seen.versionRead (u : Decimals) (older : List Seen) : Seen → Option (Option (ℕ × ℕ))
  | .systemInfo version true =>
    some (parseVersion u ((reportedVersion (.systemInfo version true :: older)).getD "").toList)
  | _ => none

/-- Whether what is seen is bad for a matter, if it says anything of it. -/
def observed (u : Decimals) (older : List Seen) : Matter → Seen → Option Bool
  | .systemInfo,.systemInfo version _ => some version.isNone
  | .interfaceQuery,.interfaces answer => some (unusable older answer)
  | .version,e => (e.versionRead u older).map Option.isNone
  | .graph name,.systemStats stale => some (stale name)
  | _,_ => none

def observations (u : Decimals) (matter : Matter) : List Seen → List Bool
  | [] => []
  | e :: older => (observed u older matter e).toList ++ observations u matter older

/-- What a step says of the matters, as flags and lines tell it. -/
structure Notes (s t : Coordinator Flt Time Err) (news : Matter → Option Bool) : Prop where
  flag : ∀ matter, t.flag matter = (news matter).getD (s.flag matter)
  lines : ∀ matter, t.lines matter = ((news matter).map (edge (s.flag matter))).getD [] ++ s.lines matter

def only (matter : Matter) (bad : Bool) : Matter → Option Bool := fun other => if other = matter then some bad else none

section Notes
variable {s t r : Coordinator Flt Time Err} {f g : Matter → Option Bool}

theorem notes_quiet (hflag : ∀ matter, t.flag matter = s.flag matter) (hlog : t.log = s.log) :
    Notes s t (fun _ => none) :=
  ⟨hflag,fun matter => by rw [Coordinator.lines,hlog]; rfl⟩

theorem notes_only {matter : Matter} {bad : Bool} {new : List (Line Err)} (hlog : t.log = new ++ s.log)
    (hflag : t.flag matter = bad) (hnew : new.filterMap (Line.edge matter) = edge (s.flag matter) bad)
    (hother : ∀ other, other ≠ matter → t.flag other = s.flag other ∧ new.filterMap (Line.edge other) = []) :
    Notes s t (only matter bad) where
  flag other := by
    unfold only
    split
    · rename_i heq
      rw [heq]
      exact hflag
    · rename_i hne
      exact (hother other hne).1
  lines other := by
    rw [Coordinator.lines,hlog,List.filterMap_append]
    unfold only
    split
    · rename_i heq
      rw [heq,hnew]
      rfl
    · rename_i hne
      rw [(hother other hne).2]
      rfl

theorem Notes.trans (h : Notes s t f) (h' : Notes t r g) (hone : ∀ matter, f matter = none ∨ g matter = none) :
    Notes s r (fun matter => (g matter).or (f matter)) where
  flag matter := by
    rw [h'.flag,h.flag]
    rcases hone matter with hnone | hnone
    · cases hg : g matter <;> simp [hnone]
    · simp [hnone]
  lines matter := by
    rw [h'.lines,h.lines,h.flag]
    rcases hone matter with hnone | hnone
    · cases hg : g matter <;> simp [hnone]
    · simp [hnone]

theorem Notes.quiet_trans (h : Notes s t (fun _ => none)) (h' : Notes t r g) : Notes s r g := by
  have hall := h.trans h' (fun _ => Or.inl rfl)
  simpa only [Option.or_none] using hall

theorem Notes.trans_quiet (h : Notes s t f) (h' : Notes t r (fun _ => none)) : Notes s r f := by
  have hall := h.trans h' (fun _ => Or.inr rfl)
  simpa only [Option.none_or] using hall

theorem Notes.told (h : Notes s t f) {matter : Matter} {past : List Bool}
    (htold : Told (s.flag matter) (s.lines matter) past) :
    Told (t.flag matter) (t.lines matter) ((f matter).toList ++ past) := by
  rw [h.flag,h.lines]
  cases hf : f matter with
  | none => exact htold
  | some bad => exact htold.observe bad

end Notes

section Steps
variable {u : Decimals} {py : Interpreter} {s t : Coordinator Flt Time Err}

theorem notes_noteSystemInfo (malformed : Bool) : Notes s (s.noteSystemInfo malformed) (only .systemInfo malformed) := by
  refine notes_only rfl rfl ?_ (fun other hne => ?_)
  · unfold Coordinator.flag
    cases s.jobs.marks.systemInfoStale <;> cases malformed <;> rfl
  · cases other with
    | systemInfo => exact absurd rfl hne
    | _ => exact ⟨rfl,by cases s.jobs.marks.systemInfoStale <;> cases malformed <;> rfl⟩

theorem notes_noteVersion (text : String) :
    Notes s (s.noteVersion u text) (only .version (parseVersion u text.toList).isNone) := by
  unfold Coordinator.noteVersion
  cases parseVersion u text.toList with
  | some version =>
    refine notes_only rfl rfl ?_ (fun other hne => ?_)
    · unfold Coordinator.flag
      cases s.versionParseWarned <;> rfl
    · cases other with
      | version => exact absurd rfl hne
      | _ => exact ⟨rfl,by cases s.versionParseWarned <;> rfl⟩
  | none =>
    refine notes_only rfl rfl ?_ (fun other hne => ?_)
    · unfold Coordinator.flag
      cases s.versionParseWarned <;> rfl
    · cases other with
      | version => exact absurd rfl hne
      | _ => exact ⟨rfl,by cases s.versionParseWarned <;> rfl⟩

theorem notes_markInterfaceStale {line : Line Err} (hline : Line.edge .interfaceQuery line = some .raised)
    (hother : ∀ matter, matter ≠ .interfaceQuery → Line.edge matter line = none) :
    Notes s (s.markInterfaceStale line) (only .interfaceQuery true) := by
  refine notes_only rfl rfl ?_ (fun other hne => ?_)
  · unfold Coordinator.flag
    cases s.jobs.marks.interfaceStale <;> simp [edge,hline]
  · cases other with
    | interfaceQuery => exact absurd rfl hne
    | _ => exact ⟨rfl,by cases s.jobs.marks.interfaceStale <;> simp [hother]⟩

/-- What an answer of `interface.query` says, seen from the interfaces that are known. -/
def interfaceNews (s : Coordinator Flt Time Err) : InterfaceReply → Matter → Option Bool
  | .raised _ => fun _ => none
  | .malformed => only .interfaceQuery true
  | .answered interfaces => only .interfaceQuery (interfaces.keys = [] ∧ s.interface.keys ≠ [])

theorem notes_getInterface (reply : InterfaceReply) : Notes s (s.getInterface reply).1 (interfaceNews s reply) := by
  have hmalformed : ∀ matter, matter ≠ .interfaceQuery → Line.edge matter (.interfaceMalformed : Line Err) = none := by
    intro matter hne
    cases matter with
    | interfaceQuery => exact absurd rfl hne
    | _ => rfl
  have hempty : ∀ matter, matter ≠ .interfaceQuery → Line.edge matter (.interfaceNoUsableEntry : Line Err) = none := by
    intro matter hne
    cases matter with
    | interfaceQuery => exact absurd rfl hne
    | _ => rfl
  cases reply with
  | raised err => exact notes_quiet (fun _ => rfl) rfl
  | malformed => exact notes_markInterfaceStale rfl hmalformed
  | answered interfaces =>
    unfold Coordinator.getInterface interfaceNews
    dsimp only
    split
    · rename_i hbad
      rw [decide_eq_true hbad]
      exact notes_markInterfaceStale rfl hempty
    · rename_i hgood
      rw [decide_eq_false hgood]
      refine notes_only rfl rfl ?_ (fun other hne => ?_)
      · unfold Coordinator.flag
        cases s.jobs.marks.interfaceStale <;> rfl
      · cases other with
        | interfaceQuery => exact absurd rfl hne
        | _ => exact ⟨rfl,by cases s.jobs.marks.interfaceStale <;> rfl⟩

theorem edge_graphsRecovered (name : String) (graphs : Finset String) :
    (if graphs = ∅ then [] else [(Line.graphsRecovered graphs : Line Err)]).filterMap (Line.edge (.graph name)) =
      if name ∈ graphs then [.cleared] else [] := by
  by_cases hempty : graphs = ∅
  · simp [hempty]
  · by_cases hname : name ∈ graphs
    · simp [hempty,hname,Line.edge]
    · simp [hempty,hname,Line.edge]

theorem edge_graphsFailed (name : String) (graphs : Finset String) (reasons : Dict String (Option Err)) :
    (if graphs = ∅ then [] else [Line.graphsFailed graphs reasons]).filterMap (Line.edge (.graph name)) =
      if name ∈ graphs then [.raised] else [] := by
  by_cases hempty : graphs = ∅
  · simp [hempty]
  · by_cases hname : name ∈ graphs
    · simp [hempty,hname,Line.edge]
    · simp [hempty,hname,Line.edge]

def graphNews (stale : String → Bool) : Matter → Option Bool
  | .graph name => some (stale name)
  | _ => none

/-- Each graph is told of by itself, however many share a line. -/
theorem notes_logSystemstatsStaleness {stale : Dict String (Option Err)} {news : String → Bool}
    (h : ∀ name, name ∈ stale ↔ news name = true) : Notes s (s.logSystemstatsStaleness stale) (graphNews news) where
  flag matter := by
    cases matter with
    | graph name =>
      change decide (name ∈ stale.keys.toFinset) = news name
      rw [Bool.eq_iff_iff,decide_eq_true_iff,List.mem_toFinset,← AList.mem_keys,h]
    | _ => rfl
  lines matter := by
    have hlog : (s.logSystemstatsStaleness stale).log =
        ((if s.staleGraphsLogged \ stale.keys.toFinset = ∅ then [] else
            [Line.graphsRecovered (s.staleGraphsLogged \ stale.keys.toFinset)]) ++
          (if stale.keys.toFinset \ s.staleGraphsLogged = ∅ then [] else
            [Line.graphsFailed (stale.keys.toFinset \ s.staleGraphsLogged) stale])) ++ s.log :=
      (List.append_assoc _ _ _).symm
    rw [Coordinator.lines,hlog,List.filterMap_append]
    congr 1
    cases matter with
    | graph name =>
      rw [List.filterMap_append,edge_graphsRecovered,edge_graphsFailed]
      have hnow : name ∈ stale.keys.toFinset ↔ news name = true := by
        rw [List.mem_toFinset,← AList.mem_keys,h]
      simp only [Finset.mem_sdiff,hnow]
      change _ = edge (decide (name ∈ s.staleGraphsLogged)) (news name)
      by_cases hlogged : name ∈ s.staleGraphsLogged <;> cases news name <;> simp [edge,hlogged]
    | _ =>
      rw [List.filterMap_append]
      split <;> split <;> rfl

theorem mem_staleGraphs {info : Option (SystemInfo Flt Time)} {ids : List String} {reply : StatsReply Flt Err}
    {name : String} (hname : name ≠ "interface" ∨ ids ≠ []) :
    name ∈ staleGraphs (systemstatsGraphs info) ids reply ↔ graphStale info ids reply name = true := by
  have hasked : (name ≠ "interface" || ids ≠ []) = true := by simpa using hname
  unfold graphStale
  rw [hasked,Bool.true_and]
  cases reply with
  | failed err => simp [staleGraphs,Dict.mem_collect]
  | raised err => simp [staleGraphs]
  | answered stats =>
    simp only [staleGraphs,Dict.mem_collect,graphsWithoutReading]
    have hfailed : name ∈ (failedGraphs stats).entries.filterMap (fun x => some x.1) ↔ name ∈ failedGraphs stats := by
      rw [AList.mem_keys,AList.keys,List.keys]
      simp
    rw [hfailed]
    by_cases hmem : name ∈ failedGraphs stats
    · simp [hmem]
    · simp [hmem]

def statsNews (s : Coordinator Flt Time Err) : StatsReply Flt Err → Matter → Option Bool
  | .raised _ => fun _ => none
  | reply => graphNews (graphStale s.data.info s.interface.keys reply)

theorem notes_getSystemstats (hsilent : s.interface.keys = [] → "interface" ∉ s.staleGraphsLogged)
    (reply : StatsReply Flt Err) : Notes s (s.getSystemstats reply).1 (statsNews s reply) := by
  have hlog : ∀ t : Coordinator Flt Time Err, Notes s t (fun _ => none) → t.interface = s.interface →
      t.staleGraphsLogged = s.staleGraphsLogged →
      Notes s (if t.interface.keys = [] then
        (Coordinator.logSystemstatsStaleness { t with staleGraphsLogged := t.staleGraphsLogged.erase "interface" }
          ((staleGraphs (systemstatsGraphs s.data.info) s.interface.keys reply).erase "interface"),Jobs.Outcome.returned)
      else (t.logSystemstatsStaleness (staleGraphs (systemstatsGraphs s.data.info) s.interface.keys reply),
        Jobs.Outcome.returned)).1 (graphNews (graphStale s.data.info s.interface.keys reply)) := by
    intro t ht hinterface hlogged
    by_cases hempty : s.interface.keys = []
    · rw [if_pos (by rw [hinterface]; exact hempty)]
      -- what is dropped without a word has never been logged
      have hsame : ({ t with staleGraphsLogged := t.staleGraphsLogged.erase "interface" } : Coordinator Flt Time Err) = t := by
        rw [Finset.erase_eq_of_notMem (by rw [hlogged]; exact hsilent hempty)]
      rw [hsame]
      refine ht.quiet_trans (notes_logSystemstatsStaleness (fun name => ?_))
      rw [AList.mem_erase]
      by_cases hname : name = "interface"
      · simp [hname,graphStale,hempty]
      · rw [and_iff_right hname,mem_staleGraphs (Or.inl hname)]
    · rw [if_neg (by rw [hinterface]; exact hempty)]
      exact ht.quiet_trans (notes_logSystemstatsStaleness (fun name => mem_staleGraphs (Or.inr hempty)))
  have hquiet : Notes s s (fun _ => none) := notes_quiet (fun _ => rfl) rfl
  cases reply with
  | raised err => exact hquiet
  | failed err => exact hlog s hquiet rfl rfl
  | answered stats =>
    have hdata : Notes s { s with data := SystemData.getSystemstats s.data (some stats) s.interface.keys }
        (fun _ => none) := notes_quiet (fun matter => by cases matter <;> rfl) rfl
    exact hlog _ hdata rfl rfl

theorem handleUpdateJob_ok_iff {info : Fields} {source : Value} {connected : Bool} :
    (∃ settled, SystemUpdate.handleUpdateJob py info source connected = .ok settled) ↔
      SystemUpdate.tracked info = false ∨ iterable source = true := by
  unfold SystemUpdate.handleUpdateJob
  split
  · rename_i htracked
    have hs : ({ vals := SystemUpdate.updateJobVals } : ApiParser.Spec).Supported := fun rule hrule => by cases hrule
    have hall : ∀ rows : List Value, ∃ result, ApiParser.applyAllToSingle py
        { vals := SystemUpdate.updateJobVals } info rows = .ok result := by
      intro rows
      refine (ApiParser.applyAllToSingle_ok_iff hs info rows).mpr (fun entry _ _ val hval hconvert => ?_)
      simp only [SystemUpdate.updateJobVals,List.mem_cons,List.not_mem_nil,or_false] at hval
      rcases hval with rfl | rfl
      · cases hconvert
      · cases hconvert
    have hscalar : ∀ value : Value, ApiParser.sourceRows value =
        (if value.truthy then .error .notIterable else .ok (some [])) → ((∃ result, ApiParser.parseApiSingle py
          { vals := SystemUpdate.updateJobVals } info value = .ok result) ↔ (!value.truthy) = true) := by
      intro value hrows
      unfold ApiParser.parseApiSingle
      rw [hrows]
      cases value.truthy with
      | true => simp
      | false => simp
    have hparses : (∃ result, ApiParser.parseApiSingle py { vals := SystemUpdate.updateJobVals } info source =
        .ok result) ↔ iterable source = true := by
      cases source with
      | none | str => exact iff_of_true ⟨_,rfl⟩ rfl
      | dict fields => exact iff_of_true (hall [.dict fields]) rfl
      | list rows =>
        cases rows with
        | nil => exact iff_of_true ⟨_,rfl⟩ rfl
        | cons row rest => exact iff_of_true (hall (row :: rest)) rfl
      | bool | int | float | datetime => exact hscalar _ rfl
    rw [exists_map_ok_iff,hparses]
    simp [htracked]
  · rename_i htracked
    simp [htracked]

theorem lookup_handleUpdateJob {info settled : Fields} {source : Value} {connected : Bool}
    (h : SystemUpdate.handleUpdateJob py info source connected = .ok settled) :
    settled.lookup "version" = info.lookup "version" := by
  unfold SystemUpdate.handleUpdateJob at h
  split at h
  · obtain ⟨parsed,hparsed,rfl⟩ := of_map_ok h
    have hparse : parsed.lookup "version" = info.lookup "version" :=
      ApiParser.lookup_parseApiSingle (by decide) hparsed
    rw [← hparse]
    unfold SystemUpdate.settle
    split
    · simp [SystemUpdate.stopTracking,Mapping.lookup_set]
    · rfl
  · rw [← Except.ok.inj h]

theorem lookup_prepared (info : Fields) :
    (settleUpdateVersion (setDefaults info)).lookup "version" = info.lookup "version" ∧
      (setDefaults info).lookup "version" = info.lookup "version" ∧
      SystemUpdate.tracked (settleUpdateVersion (setDefaults info)) = SystemUpdate.tracked info := by
  have hsettle : ∀ info : Fields, ∀ name, name ≠ "update_version" →
      (settleUpdateVersion info).lookup name = info.lookup name := by
    intro info name hname
    unfold settleUpdateVersion
    split
    · rfl
    · rw [Mapping.lookup_set_of_ne hname]
  have hdefaults : ∀ name, (setDefaults info).lookup name = (info.lookup name).or (carryDefaults.lookup name) := by
    exact fun name => Mapping.lookup_foldl_setDefault carryDefaults
  refine ⟨?_,?_,?_⟩
  · rw [hsettle _ _ (by decide),hdefaults]
    exact Option.or_none
  · rw [hdefaults]
    exact Option.or_none
  · unfold SystemUpdate.tracked SystemUpdate.read
    rw [hsettle _ _ (by decide),hdefaults]
    cases info.lookup "update_jobid" with
    | none => rfl
    | some value => rfl

variable (u py) in
/-- Behind an answer of `system.info` the map is filled up, and the version is read from it where it is asked for. -/
theorem finishSysteminfo_cases (run : InfoRun Flt Time) : ∃ info : Fields, info.lookup "version" = s.systemInfo.lookup "version" ∧
    ((run.checksVersion s.systemInfo = false ∧ ∃ outcome, outcome ≠ Jobs.Outcome.cancelled ∧
        s.finishSysteminfo u py run = ({ s with systemInfo := info },outcome)) ∨
      (run.checksVersion s.systemInfo = true ∧ s.finishSysteminfo u py run =
        ((Coordinator.noteVersion u { s with systemInfo := info } (versionText py info)).syncStateVersion,.returned))) := by
  obtain ⟨hversion,hdefaults,htracked⟩ := lookup_prepared s.systemInfo
  unfold Coordinator.finishSysteminfo InfoRun.checksVersion
  dsimp only
  cases hconnected : run.connected with
  | false => exact ⟨_,hdefaults,Or.inl ⟨rfl,_,Jobs.Outcome.noConfusion,if_pos rfl⟩⟩
  | true =>
    simp only [Bool.true_and,Bool.true_eq_false,if_false]
    rw [← htracked]
    cases hjob : SystemUpdate.handleUpdateJob py (settleUpdateVersion (setDefaults s.systemInfo)) run.job
        run.jobConnected with
    | error e =>
      refine ⟨_,hversion,Or.inl ⟨?_,_,Jobs.Outcome.noConfusion,rfl⟩⟩
      have hnot : ¬ ∃ settled, SystemUpdate.handleUpdateJob py (settleUpdateVersion (setDefaults s.systemInfo)) run.job
          run.jobConnected = .ok settled := by simp [hjob]
      rw [handleUpdateJob_ok_iff,not_or] at hnot
      simp [hnot.1,hnot.2]
    | ok settled =>
      have hok := handleUpdateJob_ok_iff.mp ⟨settled,hjob⟩
      refine ⟨settled,(lookup_handleUpdateJob hjob).trans hversion,?_⟩
      dsimp only
      split
      · rename_i hlost
        exact Or.inl ⟨by simp [hlost.1,hlost.2],_,Jobs.Outcome.noConfusion,rfl⟩
      · rename_i hkept
        refine Or.inr ⟨?_,rfl⟩
        cases htrack : SystemUpdate.tracked (settleUpdateVersion (setDefaults s.systemInfo)) with
        | false => rfl
        | true =>
          rw [htrack] at hok hkept
          simpa [hok.resolve_left (by simp)] using hkept

end Steps

structure Inv (u : Decimals) (s : Coordinator Flt Time Err) (past : List Seen) : Prop where
  told : ∀ matter, Told (s.flag matter) (s.lines matter) (observations u matter past)
  known : s.interface.keys = [] ↔ knownInterfaces past = none
  silent : s.interface.keys = [] → "interface" ∉ s.staleGraphsLogged
  reported : s.systemInfo.lookup "version" = (reportedVersion past).map Value.str

section Runs
variable {u : Decimals} {py : Interpreter} {s t : Coordinator Flt Time Err} {past : List Seen} {h : History Flt Time Err}

theorem knownInterfaces_cons (e : Seen) (past : List Seen) :
    knownInterfaces (e :: past) = e.named.or (knownInterfaces past) := by
  rw [knownInterfaces,List.findSome?_cons]
  cases e.named <;> rfl

theorem reportedVersion_cons (e : Seen) (past : List Seen) :
    reportedVersion (e :: past) = e.reported.or (reportedVersion past) := by
  rw [reportedVersion,List.findSome?_cons]
  cases e.reported <;> rfl

variable (py) in
theorem versionText_of_lookup {info : Fields} {reported : Option String}
    (h : info.lookup "version" = reported.map Value.str) : versionText py info = reported.getD "" := by
  unfold versionText SystemUpdate.read
  rw [h]
  cases reported <;> rfl

theorem Inv.told_cons (hs : Inv u s past) {e : Seen} {news : Matter → Option Bool} (hn : Notes s t news)
    (hnews : ∀ matter, news matter = observed u past matter e) (matter : Matter) :
    Told (t.flag matter) (t.lines matter) (observations u matter (e :: past)) := by
  rw [observations,← hnews]
  exact hn.told (hs.told matter)

theorem Inv.told_quiet (hs : Inv u s past) (hn : Notes s t (fun _ => none)) (matter : Matter) :
    Told (t.flag matter) (t.lines matter) (observations u matter past) := hn.told (hs.told matter)

theorem Inv.quiet (hs : Inv u s past) (hn : Notes s t (fun _ => none)) (hinterface : t.interface = s.interface)
    (hlogged : t.staleGraphsLogged = s.staleGraphsLogged)
    (hversion : t.systemInfo.lookup "version" = s.systemInfo.lookup "version") : Inv u t past where
  told := hs.told_quiet hn
  known := by
    rw [hinterface]
    exact hs.known
  silent := by
    rw [hinterface,hlogged]
    exact hs.silent
  reported := hversion.trans hs.reported

theorem marks_runJob (jobs : Jobs.State) (job : Jobs.Job) (outcome : Jobs.Outcome) :
    (jobs.runJob job outcome).1.marks = jobs.marks := by
  cases outcome <;> rfl

theorem Inv.ended (hs : Inv u s past) (name : String) (outcome : Jobs.Outcome) :
    Inv u (Coordinator.ended name (s,outcome)) past := by
  refine hs.quiet (notes_quiet (fun matter => ?_) rfl) rfl rfl rfl
  cases matter with
  | systemInfo => exact congrArg Jobs.Marks.systemInfoStale (marks_runJob _ _ _)
  | interfaceQuery => exact congrArg Jobs.Marks.interfaceStale (marks_runJob _ _ _)
  | version => rfl
  | graph name => rfl

/-- What `get_systeminfo` does once it has noted the answer. -/
theorem Inv.finishSysteminfo (hs : Inv u s past) {run : InfoRun Flt Time} (version : Option (Option String))
    {e : Seen} (he : e = .systemInfo version (run.checksVersion t.systemInfo))
    (hn : Notes s t (only .systemInfo version.isNone)) (hinterface : t.interface = s.interface)
    (hlogged : t.staleGraphsLogged = s.staleGraphsLogged)
    (hversion : t.systemInfo.lookup "version" = (reportedVersion (e :: past)).map Value.str) :
    Inv u (t.finishSysteminfo u py run).1 (e :: past) := by
  have hknown : t.interface.keys = [] ↔ knownInterfaces (e :: past) = none := by
    rw [hinterface,knownInterfaces_cons,he]
    exact hs.known
  have hsilent : t.interface.keys = [] → "interface" ∉ t.staleGraphsLogged := by
    rw [hinterface,hlogged]
    exact hs.silent
  obtain ⟨info,hinfo,⟨hchecks,outcome,-,heq⟩ | ⟨hchecks,heq⟩⟩ := finishSysteminfo_cases (s := t) u py run
  · rw [heq]
    refine ⟨hs.told_cons (hn.trans_quiet (notes_quiet (fun matter => by cases matter <;> rfl) rfl)) (fun matter => ?_),
      hknown,hsilent,hinfo.trans hversion⟩
    rw [he,hchecks]
    cases matter with
    | systemInfo => rfl
    | _ => rfl
  · rw [heq]
    have htext : versionText py info = (reportedVersion (e :: past)).getD "" := versionText_of_lookup py (hinfo.trans hversion)
    have hquiet : Notes t { t with systemInfo := info } (fun _ => none) :=
      notes_quiet (fun matter => by cases matter <;> rfl) rfl
    have hnoted := hn.trans (hquiet.quiet_trans (notes_noteVersion (u := u) (versionText py info))) (fun matter => by
      cases matter with
      | systemInfo => exact Or.inr rfl
      | _ => exact Or.inl rfl)
    have hkept : ∀ text, (Coordinator.noteVersion u { t with systemInfo := info } text).interface = t.interface ∧
        (Coordinator.noteVersion u { t with systemInfo := info } text).staleGraphsLogged = t.staleGraphsLogged ∧
        (Coordinator.noteVersion u { t with systemInfo := info } text).systemInfo = info := by
      intro text
      unfold Coordinator.noteVersion
      cases parseVersion u text.toList with
      | none => exact ⟨rfl,rfl,rfl⟩
      | some version => exact ⟨rfl,rfl,rfl⟩
    obtain ⟨hinterface',hlogged',hinfo'⟩ := hkept (versionText py info)
    refine ⟨hs.told_cons (hnoted.trans_quiet (notes_quiet (fun matter => by cases matter <;> rfl) rfl)) (fun matter => ?_),
      ?_,?_,?_⟩
    · rw [he,hchecks]
      cases matter with
      | systemInfo => rfl
      | version =>
        rw [htext,he,hchecks]
        rfl
      | _ => rfl
    · change (Coordinator.noteVersion u { t with systemInfo := info } (versionText py info)).interface.keys = [] ↔ _
      rw [hinterface']
      exact hknown
    · change (Coordinator.noteVersion u { t with systemInfo := info } (versionText py info)).interface.keys = [] →
        "interface" ∉ (Coordinator.noteVersion u { t with systemInfo := info } (versionText py info)).staleGraphsLogged
      rw [hinterface',hlogged']
      exact hsilent
    · change (Coordinator.noteVersion u { t with systemInfo := info } (versionText py info)).systemInfo.lookup "version" = _
      rw [hinfo']
      exact hinfo.trans hversion

theorem tracked_applySystemInfo (info : Fields) (systemInfo : SystemInfo Flt Time) :
    SystemUpdate.tracked (applySystemInfo info systemInfo) = SystemUpdate.tracked info := by
  unfold SystemUpdate.tracked SystemUpdate.read applySystemInfo
  rw [Mapping.lookup_update]
  rfl

/-- An answer of `system.info` says what the version is from now on. -/
theorem lookup_applySystemInfo {info : Fields} {systemInfo : SystemInfo Flt Time} {checked : Bool} :
    (applySystemInfo info systemInfo).lookup "version" =
      (reportedVersion (.systemInfo (some (systemInfo .version)) checked :: past)).map Value.str := by
  have hversion : (applySystemInfo info systemInfo).lookup "version" = some (orUnknown (systemInfo .version)) :=
    Mapping.lookup_update
  rw [reportedVersion_cons]
  refine hversion.trans ?_
  unfold orUnknown Seen.reported
  cases systemInfo .version <;> rfl

theorem Inv.getSysteminfo (hs : Inv u s past) (run : InfoRun Flt Time) :
    Inv u (s.getSysteminfo u py run).1 ((run.reply.seen (run.checksVersion s.systemInfo)).toList ++ past) := by
  obtain ⟨reply,connected,job,jobConnected⟩ := run
  cases reply with
  | raised err => exact hs
  | malformed =>
    exact hs.finishSysteminfo none rfl (notes_noteSystemInfo true) rfl rfl
      (by rw [reportedVersion_cons]; exact hs.reported)
  | answered info =>
    have hchecks : ∀ run : InfoRun Flt Time,
        run.checksVersion s.systemInfo = run.checksVersion (applySystemInfo s.systemInfo info) := by
      intro run
      unfold InfoRun.checksVersion
      rw [tracked_applySystemInfo]
    have hnotes : Notes s { s.noteSystemInfo false with
        data := SystemData.getSysteminfo s.data (some info)
        systemInfo := applySystemInfo s.systemInfo info } (only .systemInfo false) :=
      (notes_noteSystemInfo false).trans_quiet (notes_quiet (fun matter => by cases matter <;> rfl) rfl)
    exact hs.finishSysteminfo (some (info .version)) (congrArg _ (hchecks _)) hnotes rfl rfl
      lookup_applySystemInfo

theorem known_isSome (hs : Inv u s past) : (knownInterfaces past).isSome = true ↔ s.interface.keys ≠ [] := by
  rw [Option.isSome_iff_ne_none]
  exact not_congr hs.known.symm

theorem keys_applyNetworkInterfaces_eq_nil (current : Dict String Fields) (interfaces : Dict String NetworkInterface) :
    (applyNetworkInterfaces current interfaces).keys = [] ↔ interfaces.keys = [] := by
  simp only [List.eq_nil_iff_forall_not_mem,← AList.mem_keys]
  refine forall_congr' (fun id => not_congr ?_)
  rw [applyNetworkInterfaces,Dict.mem_collect]
  simp [AList.mem_keys,AList.keys,List.keys]

theorem only_interfaces (hs : Inv u s past) (interfaces : Dict String NetworkInterface) (matter : Matter) :
    only .interfaceQuery (interfaces.keys = [] ∧ s.interface.keys ≠ []) matter =
      observed u past matter (.interfaces (some interfaces)) := by
  cases matter with
  | interfaceQuery =>
    simp only [only,if_true,observed,unusable,known_isSome hs]
  | _ => rfl

theorem Inv.getInterface (hs : Inv u s past) (reply : InterfaceReply) :
    Inv u (s.getInterface reply).1 (reply.seen.toList ++ past) := by
  have hnotes : Notes s (s.getInterface reply).1 (interfaceNews s reply) := notes_getInterface reply
  cases reply with
  | raised err => exact hs
  | malformed =>
    refine ⟨hs.told_cons hnotes (fun matter => by cases matter <;> rfl),?_,hs.silent,?_⟩
    · exact hs.known
    · exact hs.reported
  | answered interfaces =>
    have hold : ∀ matter, Told ((s.getInterface (.answered interfaces)).1.flag matter)
        ((s.getInterface (.answered interfaces)).1.lines matter)
        (observations u matter (.interfaces (some interfaces) :: past)) :=
      hs.told_cons hnotes (only_interfaces hs interfaces)
    have hreported : (s.getInterface (.answered interfaces)).1.systemInfo.lookup "version" =
        (reportedVersion (.interfaces (some interfaces) :: past)).map Value.str := by
      have hsame : (s.getInterface (.answered interfaces)).1.systemInfo = s.systemInfo := by
        unfold Coordinator.getInterface
        dsimp only
        split
        · rfl
        · rfl
      rw [hsame]
      exact hs.reported
    refine ⟨hold,?_,?_,hreported⟩
    · change _ ↔ knownInterfaces (.interfaces (some interfaces) :: past) = none
      rw [knownInterfaces_cons,Seen.named]
      unfold Coordinator.getInterface
      dsimp only
      split
      · rename_i hbad
        rw [if_pos hbad.1]
        exact hs.known
      · rename_i husable
        change (applyNetworkInterfaces s.interface interfaces).keys = [] ↔ _
        rw [keys_applyNetworkInterfaces_eq_nil]
        by_cases hempty : interfaces.keys = []
        · have hnone : knownInterfaces past = none := by
            by_contra hsome
            exact husable ⟨hempty,fun heq => hsome (hs.known.mp heq)⟩
          simp [hempty,hnone]
        · simp [hempty]
    · unfold Coordinator.getInterface
      dsimp only
      split
      · exact hs.silent
      · rename_i husable
        intro heq
        refine hs.silent ?_
        by_contra hne
        exact husable ⟨(keys_applyNetworkInterfaces_eq_nil _ _).mp heq,hne⟩

theorem getSystemstats_keeps (reply : StatsReply Flt Err) :
    (s.getSystemstats reply).1.interface = s.interface ∧ (s.getSystemstats reply).1.systemInfo = s.systemInfo ∧
      (s.getSystemstats reply).1.version = s.version ∧ (s.getSystemstats reply).1.stateVersion = s.stateVersion := by
  unfold Coordinator.getSystemstats
  cases reply with
  | raised err => exact ⟨rfl,rfl,rfl,rfl⟩
  | failed err =>
    dsimp only
    split
    · exact ⟨rfl,rfl,rfl,rfl⟩
    · exact ⟨rfl,rfl,rfl,rfl⟩
  | answered stats =>
    dsimp only
    split
    · exact ⟨rfl,rfl,rfl,rfl⟩
    · exact ⟨rfl,rfl,rfl,rfl⟩

theorem Inv.getSystemstats (hs : Inv u s past) (reply : StatsReply Flt Err) :
    Inv u (s.getSystemstats reply).1 ((reply.seen (graphStale s.data.info s.interface.keys reply)).toList ++ past) := by
  have hnotes : Notes s (s.getSystemstats reply).1 (statsNews s reply) := notes_getSystemstats hs.silent reply
  obtain ⟨hinterface,hinfo,-,-⟩ := getSystemstats_keeps (s := s) reply
  have hsilent : statsNews s reply (.graph "interface") = some (graphStale s.data.info s.interface.keys reply "interface") →
      (s.getSystemstats reply).1.interface.keys = [] → "interface" ∉ (s.getSystemstats reply).1.staleGraphsLogged := by
    intro hnews hempty
    rw [hinterface] at hempty
    have hflag : decide ("interface" ∈ (s.getSystemstats reply).1.staleGraphsLogged) = _ := hnotes.flag (.graph "interface")
    rw [hnews] at hflag
    exact of_decide_eq_false (hflag.trans (by simp [graphStale,hempty]))
  cases reply with
  | raised err => exact hs
  | failed err =>
    refine ⟨hs.told_cons hnotes (fun matter => by cases matter <;> rfl),?_,hsilent rfl,?_⟩
    · rw [hinterface]
      exact hs.known
    · rw [hinfo]
      exact hs.reported
  | answered stats =>
    refine ⟨hs.told_cons hnotes (fun matter => by cases matter <;> rfl),?_,hsilent rfl,?_⟩
    · rw [hinterface]
      exact hs.known
    · rw [hinfo]
      exact hs.reported

theorem Inv.record (hs : Inv u h.coordinator h.past) (e : Event Flt Time Err) :
    Inv u (h.record u py e).coordinator (h.record u py e).past := by
  cases e with
  | systeminfo run => exact (hs.getSysteminfo run).ended _ _
  | interface reply => exact (hs.getInterface reply).ended _ _
  | systemstats reply => exact (hs.getSystemstats reply).ended _ _
  | updatecheck reply =>
    cases reply with
    | raised err => exact hs.ended _ _
    | answered available state version =>
      have hmerged : Inv u (h.coordinator.getUpdatecheck (.answered available state version)).1 h.past :=
        hs.quiet (notes_quiet (fun matter => by cases matter <;> rfl) rfl) rfl rfl
          (Mapping.lookup_update.trans Option.none_or)
      exact hmerged.ended _ _
  | other name outcome endpoints =>
    have hmarked : Inv u { h.coordinator with jobs := { h.coordinator.jobs with
        marks := { h.coordinator.jobs.marks with staleEndpoints := endpoints } } } h.past :=
      hs.quiet (notes_quiet (fun matter => by cases matter <;> rfl) rfl) rfl rfl rfl
    exact hmarked.ended _ _

theorem inv_fresh : Inv u (Coordinator.fresh Flt Time Err) [] where
  told matter := by cases matter <;> exact ⟨rfl,rfl⟩
  known := ⟨fun _ => rfl,fun _ => rfl⟩
  silent _ := Finset.notMem_empty _
  reported := rfl

theorem inv_of_reachable (hr : (system u py).Reachable h) : Inv u h.coordinator h.past := by
  refine hr.invariant (I := fun h : History Flt Time Err => Inv u h.coordinator h.past) ?_ ?_
  · rintro _ rfl
    exact inv_fresh
  · intro h e h' hs _ he
    cases he
    exact hs.record e

/-- Of each matter the log warns once when answers begin to be of no use and once tells that they recovered. -/
theorem announced_of_reachable (hr : (system u py).Reachable h) (matter : Matter) :
    h.coordinator.flag matter = (observations u matter h.past).headD false ∧
      h.coordinator.lines matter = edges (observations u matter h.past) ∧
      Latched (h.coordinator.flag matter) (h.coordinator.lines matter) ∧
      (h.coordinator.lines matter).count .raised =
        (h.coordinator.lines matter).count .cleared + (h.coordinator.flag matter).toNat := by
  have htold := (inv_of_reachable hr).told matter
  refine ⟨htold.flag,htold.lines,htold.latched,?_⟩
  rw [htold.lines,htold.flag]
  exact count_edges _

end Runs

/-- Two malformed answers of `system.info` in a row. -/
def malformedTwice : List (Event ℕ ℕ Unit) :=
  [.systeminfo ⟨.malformed,true,.none,true⟩,.systeminfo ⟨.malformed,true,.none,true⟩]

theorem announced_of_malformedTwice :
    (play asciiDecimals ApiParser.plain malformedTwice).coordinator.lines .systemInfo = [.raised] := by
  obtain ⟨-,hlines,-⟩ :=
    announced_of_reachable (reachable_play asciiDecimals ApiParser.plain malformedTwice) .systemInfo
  exact hlines

end TruenasCE.Polling
