import Mathlib.Data.Prod.Lex
import TruenasCE.Polling.Announced

/-! # What the polls keep

The version and the interfaces outlive the answers that cannot be used: they are those of the last one that could.
-/
namespace TruenasCE.Polling
open Library SystemData
open ApiParser (Fields Value Interpreter)

variable {Flt Time Err : Type} {u : Decimals} {py : Interpreter} {s t : Coordinator Flt Time Err} {past : List Seen}
variable {h : History Flt Time Err}

def readVersion (u : Decimals) : List Seen → Option (ℕ × ℕ)
  | [] => none
  | e :: older => (e.versionRead u older).join.or (readVersion u older)

/-- The entries of the interfaces that were named last, each as its answer says. -/
def namedEntry (past : List Seen) (id : String) : Option Fields :=
  (knownInterfaces past).bind (fun interfaces => (interfaces.lookup id).map NetworkInterface.fields)

/-- What is kept, told by what has been seen. -/
structure Kept (u : Decimals) (s : Coordinator Flt Time Err) (past : List Seen) : Prop where
  version : s.version = readVersion u past
  handedOver : s.stateVersion = s.version
  interface : ∀ id, s.interface.lookup id = namedEntry past id

theorem namedEntry_cons (e : Seen) (past : List Seen) (id : String) :
    namedEntry (e :: past) id = if e.named.isSome then
      e.named.bind (fun interfaces => (interfaces.lookup id).map NetworkInterface.fields) else namedEntry past id := by
  rw [namedEntry,knownInterfaces_cons]
  cases e.named <;> rfl

theorem Kept.same (hs : Kept u s past) (hversion : t.version = s.version) (hstate : t.stateVersion = s.stateVersion)
    (hinterface : t.interface = s.interface) : Kept u t past where
  version := hversion.trans hs.version
  handedOver := by
    rw [hversion,hstate]
    exact hs.handedOver
  interface id := by
    rw [hinterface]
    exact hs.interface id

theorem Kept.quiet (hs : Kept u s past) {e : Seen} (hversion : t.version = s.version)
    (hstate : t.stateVersion = s.stateVersion) (hinterface : t.interface = s.interface)
    (hread : e.versionRead u past = none) (hnamed : e.named = none) : Kept u t (e :: past) where
  version := by
    rw [hversion,readVersion,hread]
    exact hs.version
  handedOver := by
    rw [hversion,hstate]
    exact hs.handedOver
  interface id := by
    rw [hinterface,namedEntry_cons,hnamed]
    exact hs.interface id

theorem version_noteVersion (text : String) : (s.noteVersion u text).syncStateVersion.version =
    (parseVersion u text.toList).or s.version ∧ (s.noteVersion u text).syncStateVersion.stateVersion =
      ((parseVersion u text.toList).or s.version).or s.stateVersion ∧
    (s.noteVersion u text).syncStateVersion.interface = s.interface := by
  unfold Coordinator.noteVersion
  cases parseVersion u text.toList with
  | none => exact ⟨rfl,rfl,rfl⟩
  | some version => exact ⟨rfl,rfl,rfl⟩

variable (py) in
/-- What `get_systeminfo` does once it has noted the answer. -/
theorem Kept.finishSysteminfo (hs : Kept u s past) (run : InfoRun Flt Time) (version : Option (Option String))
    (hsame : t.version = s.version ∧ t.stateVersion = s.stateVersion ∧ t.interface = s.interface)
    (hreported : t.systemInfo.lookup "version" =
      (reportedVersion (.systemInfo version (run.checksVersion t.systemInfo) :: past)).map Value.str) :
    Kept u (t.finishSysteminfo u py run).1 (.systemInfo version (run.checksVersion t.systemInfo) :: past) := by
  obtain ⟨hversion,hstate,hinterface⟩ := hsame
  obtain ⟨info,hinfo,⟨hchecks,outcome,-,heq⟩ | ⟨hchecks,heq⟩⟩ := finishSysteminfo_cases (s := t) u py run
  · rw [heq,hchecks]
    exact hs.quiet hversion hstate hinterface rfl rfl
  · have htext := versionText_of_lookup py (hinfo.trans hreported)
    obtain ⟨hnoted,hsynced,hsame⟩ :=
      version_noteVersion (s := { t with systemInfo := info }) (u := u) (versionText py info)
    rw [hchecks] at htext
    rw [heq,hchecks]
    have hread : readVersion u (.systemInfo version true :: past) =
        (parseVersion u (versionText py info).toList).or t.version := by
      rw [htext,hversion,hs.version]
      rfl
    refine ⟨hnoted.trans hread.symm,hsynced.trans ?_,fun id => ?_⟩
    · change _ = (Coordinator.noteVersion u { t with systemInfo := info } (versionText py info)).syncStateVersion.version
      rw [hnoted,hstate,hs.handedOver,← hversion]
      exact (Option.or_assoc ..).trans (by rw [Option.or_self])
    · change (Coordinator.noteVersion u { t with systemInfo := info } (versionText py info)).syncStateVersion.interface.lookup
        id = _
      rw [hsame]
      change t.interface.lookup id = _
      rw [hinterface,hs.interface,namedEntry_cons]
      rfl

/-- The entry of an interface holds what its own answer says, whatever it held before. -/
theorem update_fields {entry : Fields} (h : entry = [] ∨ ∃ old : NetworkInterface, entry = old.fields)
    (interface : NetworkInterface) : Mapping.update entry interface.fields = interface.fields := by
  rcases h with rfl | ⟨old,rfl⟩
  · simp [Mapping.update,NetworkInterface.fields]
  · simp [Mapping.update,NetworkInterface.fields,Mapping.lookup_cons]

theorem lookup_applyNetworkInterfaces {current : Dict String Fields}
    (h : ∀ id entry, current.lookup id = some entry → ∃ old : NetworkInterface, entry = old.fields)
    (interfaces : Dict String NetworkInterface) (id : String) :
    (applyNetworkInterfaces current interfaces).lookup id = (interfaces.lookup id).map NetworkInterface.fields := by
  have hcollect : (Dict.collect (fun x => if True then some x.1 else none)
      (fun x => Mapping.update ((current.lookup x.1).getD []) x.2.fields) ∅ interfaces.entries).lookup id = _ :=
    Dict.lookup_collect_entries (p := fun _ => True) ∅ interfaces id
  simp only [if_true] at hcollect
  rw [applyNetworkInterfaces,hcollect]
  cases hlookup : interfaces.lookup id with
  | none => simp
  | some interface =>
    rw [Option.map_some,Option.some_or,Option.map_some,update_fields]
    cases hentry : current.lookup id with
    | none => exact Or.inl rfl
    | some entry => exact Or.inr (h id entry hentry)

theorem Kept.getSysteminfo (hinv : Inv u s past) (hs : Kept u s past) (run : InfoRun Flt Time) :
    Kept u (s.getSysteminfo u py run).1 ((run.reply.seen (run.checksVersion s.systemInfo)).toList ++ past) := by
  obtain ⟨reply,connected,job,jobConnected⟩ := run
  cases reply with
  | raised err => exact hs
  | malformed => exact hs.finishSysteminfo py _ none (t := s.noteSystemInfo true) ⟨rfl,rfl,rfl⟩ hinv.reported
  | answered info =>
    have hchecks : ∀ run : InfoRun Flt Time,
        run.checksVersion s.systemInfo = run.checksVersion (applySystemInfo s.systemInfo info) := by
      intro run
      unfold InfoRun.checksVersion
      rw [tracked_applySystemInfo]
    have hseen := hs.finishSysteminfo py ⟨.answered info,connected,job,jobConnected⟩ (some (info .version))
      (t := { s.noteSystemInfo false with
        data := SystemData.getSysteminfo s.data (some info)
        systemInfo := applySystemInfo s.systemInfo info }) ⟨rfl,rfl,rfl⟩ lookup_applySystemInfo
    rw [hchecks]
    exact hseen

theorem Kept.getInterface (hinv : Inv u s past) (hs : Kept u s past) (reply : InterfaceReply) :
    Kept u (s.getInterface reply).1 (reply.seen.toList ++ past) := by
  cases reply with
  | raised err => exact hs
  | malformed => exact hs.quiet rfl rfl rfl rfl rfl
  | answered interfaces =>
    unfold Coordinator.getInterface
    dsimp only
    split
    · rename_i hempty
      exact hs.quiet (e := .interfaces (some interfaces)) rfl rfl rfl rfl (by rw [Seen.named,if_pos hempty.1])
    · rename_i husable
      refine ⟨hs.version,hs.handedOver,fun id => ?_⟩
      have hentries : ∀ id entry, s.interface.lookup id = some entry → ∃ old : NetworkInterface, entry = old.fields := by
        intro id entry hentry
        rw [hs.interface,namedEntry,Option.bind_eq_some_iff] at hentry
        obtain ⟨_,-,hmap⟩ := hentry
        obtain ⟨old,-,rfl⟩ := Option.map_eq_some_iff.mp hmap
        exact ⟨old,rfl⟩
      change (applyNetworkInterfaces s.interface interfaces).lookup id = namedEntry (.interfaces (some interfaces) :: past) id
      rw [lookup_applyNetworkInterfaces hentries,namedEntry_cons,Seen.named]
      by_cases hempty : interfaces.keys = []
      · have hnone : knownInterfaces past = none := by
          by_contra hsome
          exact husable ⟨hempty,fun heq => hsome (hinv.known.mp heq)⟩
        have hlookup : interfaces.lookup id = none := by
          rw [AList.lookup_eq_none,AList.mem_keys,hempty]
          exact List.not_mem_nil
        rw [if_pos hempty,hlookup,namedEntry,hnone]
        rfl
      · rw [if_neg hempty]
        rfl

theorem Kept.getSystemstats (hs : Kept u s past) (reply : StatsReply Flt Err) (stale : String → Bool) :
    Kept u (s.getSystemstats reply).1 ((reply.seen stale).toList ++ past) := by
  obtain ⟨hinterface,-,hversion,hstate⟩ := getSystemstats_keeps (s := s) reply
  cases reply with
  | raised err => exact hs
  | failed err => exact hs.quiet hversion hstate hinterface rfl rfl
  | answered stats => exact hs.quiet hversion hstate hinterface rfl rfl

theorem Kept.ended (hs : Kept u s past) (name : String) (outcome : Jobs.Outcome) :
    Kept u (Coordinator.ended name (s,outcome)) past := Kept.same hs rfl rfl rfl

theorem Kept.record (hinv : Inv u h.coordinator h.past) (hs : Kept u h.coordinator h.past) (e : Event Flt Time Err) :
    Kept u (h.record u py e).coordinator (h.record u py e).past := by
  cases e with
  | systeminfo run => exact (Kept.getSysteminfo hinv hs run).ended _ _
  | interface reply => exact (Kept.getInterface hinv hs reply).ended _ _
  | systemstats reply => exact (hs.getSystemstats reply _).ended _ _
  | updatecheck reply =>
    cases reply with
    | raised err => exact hs.ended _ _
    | answered available state version => exact Kept.same hs rfl rfl rfl
  | other name outcome endpoints => exact Kept.same hs rfl rfl rfl

theorem kept_of_reachable (hr : (system u py).Reachable h) : Kept u h.coordinator h.past := by
  refine hr.invariant_of (I := fun h : History Flt Time Err => Kept u h.coordinator h.past) inv_of_reachable ?_ ?_
  · rintro _ rfl
    exact ⟨rfl,rfl,fun _ => rfl⟩
  · intro h e h' hinv _ hs _ he
    cases he
    exact Kept.record hinv hs e

/-- What the three gates ask of a version that is known, in the order of versions. -/
theorem versionAtLeast_iff (version minimum : ℕ × ℕ) (ifUnknown : Bool) :
    versionAtLeast (some version) minimum ifUnknown = true ↔ toLex minimum ≤ toLex version := by
  rw [versionAtLeast,decide_eq_true_iff,Prod.Lex.toLex_le_toLex]

/-- The version is the last one that could be read where it was asked for, `TrueNASState` has the same, and the gates
follow it: while none is known the newest methods are called but for the containers, and from then on the two changes of
TrueNAS 26 go together. -/
theorem version_of_reachable (hr : (system u py).Reachable h) : h.coordinator.version = readVersion u h.past ∧
    h.coordinator.stateVersion = h.coordinator.version ∧
    (readVersion u h.past = none → supportsUpdateRun h.coordinator.version = true ∧
      supportsServiceControl h.coordinator.version = true ∧ supportsContainerApi h.coordinator.version = false) ∧
    ∀ version, readVersion u h.past = some version →
      (supportsUpdateRun h.coordinator.version = true ↔ toLex (25,10) ≤ toLex version) ∧
      (supportsServiceControl h.coordinator.version = true ↔ toLex (26,0) ≤ toLex version) ∧
      (supportsContainerApi h.coordinator.version = true ↔ toLex (26,0) ≤ toLex version) := by
  have hkept := kept_of_reachable hr
  refine ⟨hkept.version,hkept.handedOver,fun hnone => ?_,fun version hsome => ?_⟩
  · rw [hkept.version,hnone]
    exact ⟨rfl,rfl,rfl⟩
  · rw [hkept.version,hsome]
    exact ⟨versionAtLeast_iff _ _ _,versionAtLeast_iff _ _ _,versionAtLeast_iff _ _ _⟩

def versioned (version : Option String) : InfoReply ℕ ℕ :=
  .answered (fun field => match field with
    | .version => version
    | _ => none)

/-- An answer with a version, one without, and a newer version behind which the connection is gone. -/
def silentRuns : List (Event ℕ ℕ Unit) :=
  [.systeminfo ⟨versioned (some "TrueNAS-SCALE-25.10.1"),true,.none,true⟩,.systeminfo ⟨versioned none,true,.none,true⟩,
    .systeminfo ⟨versioned (some "TrueNAS-26.04"),false,.none,true⟩]

theorem version_of_silentRuns : (play asciiDecimals ApiParser.plain silentRuns).coordinator.version = some (25,10) ∧
    supportsUpdateRun (play asciiDecimals ApiParser.plain silentRuns).coordinator.version = true ∧
    supportsContainerApi (play asciiDecimals ApiParser.plain silentRuns).coordinator.version = false := by
  obtain ⟨hversion,-,-,hgates⟩ := version_of_reachable (reachable_play asciiDecimals ApiParser.plain silentRuns)
  have hread : readVersion asciiDecimals (play asciiDecimals ApiParser.plain silentRuns).past = some (25,10) := by decide
  obtain ⟨hrun,-,hcontainer⟩ := hgates _ hread
  refine ⟨hversion.trans hread,hrun.mpr (by decide),Bool.eq_false_iff.mpr (fun h => ?_)⟩
  exact absurd (hcontainer.mp h) (by decide)

/-- The entries are those of the last answer that named an interface, as it says them; once there are any they stay. -/
theorem interface_of_reachable (hr : (system u py).Reachable h) :
    (∀ id, h.coordinator.interface.lookup id = namedEntry h.past id) ∧
    (h.coordinator.interface.keys = [] ↔
      ∀ interfaces, Seen.interfaces (some interfaces) ∈ h.past → interfaces.keys = []) := by
  refine ⟨(kept_of_reachable hr).interface,?_⟩
  rw [(inv_of_reachable hr).known,knownInterfaces,List.findSome?_eq_none_iff]
  constructor
  · intro h interfaces hmem
    by_contra hne
    have hnone := h _ hmem
    rw [Seen.named,if_neg hne] at hnone
    cases hnone
  · intro h e hmem
    cases e with
    | interfaces answer =>
      cases answer with
      | none => rfl
      | some interfaces => rw [Seen.named,if_pos (h interfaces hmem)]
    | systemInfo version checked => rfl
    | systemStats stale => rfl

def ethernet : NetworkInterface where
  id := "eth0"
  name := none
  description := none
  mtu := some 1500
  linkState := none
  activeMediaType := none
  activeMediaSubtype := none
  linkAddress := none
  linkUp := some true

def namedOnce : List (Event ℕ ℕ Unit) :=
  [.interface (.answered (AList.insert "eth0" ethernet ∅)),.interface .malformed,.interface (.answered ∅)]

theorem interface_of_namedOnce :
    (play asciiDecimals ApiParser.plain namedOnce).coordinator.interface.lookup "eth0" = some ethernet.fields := by
  rw [(interface_of_reachable (reachable_play asciiDecimals ApiParser.plain namedOnce)).1 "eth0"]
  rfl

end TruenasCE.Polling
