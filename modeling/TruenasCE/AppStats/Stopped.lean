import TruenasCE.AppStats.Networks
import TruenasCE.Library.Past
import TruenasCE.Library.Transition

/-! # Network sensors of stopped apps

Polls, discovery, cleanup and reloads in any order. What is known of an app's interfaces
lives in the coordinator, and a reload sets up a new one; the registry stays.
-/
namespace TruenasCE.AppStats
open Library Identity Cleanup

structure Coordinator where
  monitored : List MonitorGroup
  app : Rows := []
  appStats : Dict String Vals := ∅

inductive Event
  | refreshApp (apps : Rows)
  | getAppStats (connected : Bool) (messages : Option (List Message))
  | discover
  | cleanup (lastUpdateSuccess : Bool)
  | reload (monitored : List MonitorGroup)

namespace Coordinator
variable (c : Coordinator)

/-- `get_app_stats`: the statistics it leaves -/
def getAppStats (connected : Bool) (messages : Option (List Message)) : Dict String Vals :=
  if .containers ∉ c.monitored then ∅
  else if !connected then c.appStats
  else if c.app = [] then pruneStaleAppStats c.appStats []
  else match messages with
    | none => c.appStats
    | some messages => pruneStaleAppStats (processAppStatsMessages c.appStats messages) (collectCurrentAppNames c.app)

def next : Event → Coordinator
  | .refreshApp apps => { c with app := apps }
  | .getAppStats connected messages => { c with appStats := c.getAppStats connected messages }
  | .discover => c
  | .cleanup _ => c
  | .reload monitored => { monitored := monitored }

def processed : Event → List Message
  | .getAppStats true (some messages) => if .containers ∈ c.monitored ∧ c.app ≠ [] then messages else []
  | _ => []

def snapshot (lastUpdateSuccess : Bool) : Snapshot where
  lastUpdateSuccess := lastUpdateSuccess
  monitored := c.monitored
  objects := [("app",c.app),("app_stats",c.appStats.entries.map (fun row => (row.1,row.2)))]

end Coordinator

def networkDescriptions : List EntityDescription := allDescriptions.filter (fun d => d.dataCompositeReferences ≠ [])

abbrev History := List (Coordinator × Event)

/-- `registered` are the unique ids of the network sensors in the registry. -/
structure State where
  coordinator : Coordinator
  registered : List String := []
  history : History := []

def registeredNext (pre : String) (c : Coordinator) (registered : List String) : Event → List String
  | .discover => registered ++ networkDescriptions.flatMap (c.snapshot true).discoverAppStats
  | .cleanup lastUpdateSuccess =>
    registered.filter (fun id => !orphaned pre (c.snapshot lastUpdateSuccess).listing (pre ++ id))
  | _ => registered

def next (pre : String) (s : State) (e : Event) : State :=
  ⟨s.coordinator.next e,registeredNext pre s.coordinator s.registered e,(s.coordinator,e) :: s.history⟩

def system (pre : String) : System State Event where
  init s := s.coordinator.app = [] ∧ s.coordinator.appStats = ∅ ∧ s.registered = [] ∧ s.history = []
  step s e := some (next pre s e)

/-- The app, listed at the time, reports the interface. -/
def Reports (appName iface : String) (p : Coordinator × Event) : Prop :=
  appName ∈ collectCurrentAppNames p.1.app ∧ ∃ names, lastReport (p.1.processed p.2) appName = some names ∧
    iface ∈ names

/-- The app is gone, or it runs without the interface. -/
def Ends (appName iface : String) (p : Coordinator × Event) : Prop :=
  (∃ apps, p.2 = .refreshApp apps ∧ appName ∉ collectCurrentAppNames apps) ∨
    ∃ names, lastReport (p.1.processed p.2) appName = some names ∧ iface ∉ names

def Reloads (p : Coordinator × Event) : Prop := ∃ monitored, p.2 = .reload monitored

/-- Since the app reported the interface it has been listed, and has not run without it. -/
def Owed (appName iface : String) : History → Prop :=
  Since (fun p => ¬ Ends appName iface p) (Latest (Reports appName iface))

def EverReported (appName iface : String) : History → Prop := Since (fun _ => True) (Latest (Reports appName iface))

def sensorId (d : EntityDescription) (appName iface : String) : String := d.id (appName ++ "::" ++ iface)

/-- A step keeps the network sensors of each app that is stopped, or still has the interface. -/
def Kept (s t : State) : Prop := ∀ d ∈ networkDescriptions, ∀ appName iface, sensorId d appName iface ∈ s.registered →
  Owed appName iface s.history → sensorId d appName iface ∈ t.registered

/-- The registry holds sensors of reported interfaces only. -/
def Accounted (s : State) : Prop := ∀ id ∈ s.registered, ∃ d ∈ networkDescriptions, ∃ appName iface,
  id = sensorId d appName iface ∧ EverReported appName iface s.history

/-- When a cleanup finds statistics, the interfaces it owes their sensors to have been reported since
the last reload. -/
def Refreshed (s : State) (e : Event) : Prop := e = .cleanup true → s.coordinator.appStats ≠ ∅ →
  ∀ d ∈ networkDescriptions, ∀ appName iface, sensorId d appName iface ∈ s.registered → Owed appName iface s.history →
    Since (fun p => ¬ Reloads p) (Latest (Reports appName iface)) s.history

section Step
variable {c : Coordinator} {e : Event} {appName iface : String}

theorem exists_of_lastReport {names : List String} (h : lastReport (c.processed e) appName = some names) :
    .containers ∈ c.monitored ∧ c.app ≠ [] ∧ ∃ messages, e = .getAppStats true (some messages) ∧
      c.processed e = messages := by
  unfold Coordinator.processed at h
  split at h
  · rename_i messages
    split at h
    · rename_i hc
      exact ⟨hc.1,hc.2,messages,rfl,if_pos hc⟩
    · cases h
  · cases h

theorem app_ne_nil (h : appName ∈ collectCurrentAppNames c.app) : c.app ≠ [] := by
  intro hnil
  simp [hnil,collectCurrentAppNames] at h

theorem getAppStats_unmonitored (hcont : .containers ∉ c.monitored) (connected : Bool)
    (messages : Option (List Message)) :
    c.getAppStats connected messages = ∅ := by
  unfold Coordinator.getAppStats
  exact if_pos hcont

theorem getAppStats_disconnected (hcont : .containers ∈ c.monitored) (messages : Option (List Message)) :
    c.getAppStats false messages = c.appStats := by
  unfold Coordinator.getAppStats
  rw [if_neg (not_not.mpr hcont),if_pos (Bool.not_false)]

theorem getAppStats_noApps (hcont : .containers ∈ c.monitored) (hnil : c.app = []) (messages : Option (List Message)) :
    c.getAppStats true messages = pruneStaleAppStats c.appStats [] := by
  unfold Coordinator.getAppStats
  rw [if_neg (not_not.mpr hcont),if_neg (by simp),if_pos hnil]

theorem getAppStats_unread (hcont : .containers ∈ c.monitored) (hne : c.app ≠ []) :
    c.getAppStats true none = c.appStats := by
  unfold Coordinator.getAppStats
  rw [if_neg (not_not.mpr hcont),if_neg (by simp),if_neg hne]

theorem interfacesOf_getAppStats (hcont : .containers ∈ c.monitored) (hne : c.app ≠ []) (messages : List Message) :
    interfacesOf (c.getAppStats true (some messages)) appName =
      if appName ∈ collectCurrentAppNames c.app then (lastReport messages appName).getD
        (interfacesOf c.appStats appName) else [] := by
  unfold Coordinator.getAppStats
  rw [if_neg (not_not.mpr hcont),if_neg (by simp),if_neg hne,interfacesOf_prune,interfacesOf_process]

theorem processed_getAppStats (hcont : .containers ∈ c.monitored) (hne : c.app ≠ []) (messages : List Message) :
    c.processed (.getAppStats true (some messages)) = messages := if_pos ⟨hcont,hne⟩

theorem interfacesOf_next (hcont : .containers ∈ c.monitored) (happ : appName ∈ collectCurrentAppNames c.app)
    (he : ¬ Reloads (c,e)) :
    interfacesOf (c.next e).appStats appName = (lastReport (c.processed e) appName).getD
      (interfacesOf c.appStats appName) := by
  have hne := app_ne_nil happ
  cases e with
  | refreshApp apps => rfl
  | discover => rfl
  | cleanup updated => rfl
  | reload monitored => exact absurd ⟨monitored,rfl⟩ he
  | getAppStats connected messages =>
    rw [Coordinator.next]
    cases connected with
    | false =>
      rw [getAppStats_disconnected hcont]
      rfl
    | true =>
      cases messages with
      | none =>
        rw [getAppStats_unread hcont hne]
        rfl
      | some messages => rw [interfacesOf_getAppStats hcont hne,if_pos happ,processed_getAppStats hcont hne]

theorem monitored_next (he : ¬ Reloads (c,e)) : (c.next e).monitored = c.monitored := by
  cases e with
  | reload monitored => exact absurd ⟨monitored,rfl⟩ he
  | refreshApp _ | getAppStats _ _ | discover | cleanup _ => rfl

theorem interface_of_next (h : iface ∈ interfacesOf (c.next e).appStats appName) :
    iface ∈ interfacesOf c.appStats appName ∨ Reports appName iface (c,e) := by
  have hempty : iface ∉ interfacesOf ∅ appName := by simp [interfacesOf,interfaces,networksOf]
  cases e with
  | refreshApp _ | discover | cleanup _ => exact Or.inl h
  | reload monitored => exact absurd h hempty
  | getAppStats connected messages =>
    rw [Coordinator.next] at h
    by_cases hcont : .containers ∈ c.monitored
    · cases connected with
      | false =>
        rw [getAppStats_disconnected hcont] at h
        exact Or.inl h
      | true =>
        by_cases hne : c.app = []
        · rw [getAppStats_noApps hcont hne,interfacesOf_prune] at h
          simp at h
        · cases messages with
          | none =>
            rw [getAppStats_unread hcont hne] at h
            exact Or.inl h
          | some messages =>
            rw [interfacesOf_getAppStats hcont hne] at h
            split_ifs at h with happ
            · cases hlast : lastReport messages appName with
              | none =>
                rw [hlast] at h
                exact Or.inl h
              | some names =>
                rw [hlast] at h
                exact Or.inr ⟨happ,names,by rw [processed_getAppStats hcont hne,hlast],h⟩
            · cases h
    · rw [getAppStats_unmonitored hcont] at h
      exact absurd h hempty

end Step

section Sensors
variable {c : Coordinator} {d : EntityDescription} {appName iface : String}

theorem networkDescription (hd : d ∈ networkDescriptions) : d ∈ allDescriptions ∧ d.dataCompositeReferences ≠ [] ∧
    d.func = .appStatsSensor := by
  obtain ⟨hall,hcomp⟩ := List.mem_filter.mp hd
  have hfunc : ∀ d ∈ networkDescriptions, d.func = .appStatsSensor := by decide +kernel
  exact ⟨hall,by simpa using hcomp,hfunc d hd⟩

theorem rows_snapshot (updated : Bool) :
    (c.snapshot updated).rows "app_stats" = c.appStats.entries.map (fun row => (row.1,row.2)) := by
  simp [Snapshot.rows,Coordinator.snapshot,List.lookup_cons]

theorem mem_discovered (hd : d ∈ networkDescriptions) (updated : Bool) {id : String} :
    id ∈ (c.snapshot updated).discoverAppStats d ↔ ∃ appName iface, iface ∈ interfacesOf c.appStats appName ∧
      id = sensorId d appName iface := by
  obtain ⟨_,hcomp,hfunc⟩ := networkDescription hd
  rw [Snapshot.discoverAppStats,if_neg (not_not.mpr hfunc),if_pos hcomp,List.mem_flatMap,rows_snapshot]
  have hrow : ∀ (appName : String) (vals : Vals), id ∈ Snapshot.networkSensors d (appName,vals) ↔
      ∃ iface ∈ interfaces (networksOf (some vals)), id = sensorId d appName iface := by
    intro appName vals
    simp only [Snapshot.networkSensors,interfaces,List.mem_filterMap,Option.map_eq_some_iff]
    constructor
    · rintro ⟨net,hnet,name,hname,rfl⟩
      exact ⟨name,⟨net,hnet,hname⟩,rfl⟩
    · rintro ⟨name,⟨net,hnet,hname⟩,rfl⟩
      exact ⟨net,hnet,name,hname,rfl⟩
  constructor
  · rintro ⟨_,hmem,hid⟩
    obtain ⟨⟨appName,vals⟩,hentry,rfl⟩ := List.mem_map.mp (List.mem_filter.mp hmem).1
    obtain ⟨iface,hiface,rfl⟩ := (hrow appName vals).mp hid
    refine ⟨appName,iface,?_,rfl⟩
    rwa [interfacesOf,AList.mem_lookup_iff.mpr hentry]
  · rintro ⟨appName,iface,hiface,rfl⟩
    rw [interfacesOf] at hiface
    cases hlookup : c.appStats.lookup appName with
    | none => simp [hlookup,interfaces,networksOf] at hiface
    | some vals =>
      rw [hlookup] at hiface
      refine ⟨(appName,vals),
        List.mem_filter.mpr ⟨List.mem_map.mpr ⟨⟨appName,vals⟩,AList.mem_lookup_iff.mp hlookup,rfl⟩,?_⟩,
        (hrow appName vals).mpr ⟨iface,hiface,rfl⟩⟩
      rw [decide_eq_true_eq]
      rintro rfl
      simp [interfaces,networksOf] at hiface

theorem kept_of_interface (hd : d ∈ networkDescriptions) (updated : Bool) (pre : String)
    (h : iface ∈ interfacesOf c.appStats appName) :
    orphaned pre (c.snapshot updated).listing (pre ++ sensorId d appName iface) = false := by
  have hactive : sensorId d appName iface ∈ (c.snapshot updated).listing.active :=
    Snapshot.mem_active.mpr ⟨d,(networkDescription hd).1,
      Or.inr (Snapshot.active_of_discoverAppStats (networkDescription hd).1
      ((mem_discovered hd updated).mpr ⟨appName,iface,h,rfl⟩))⟩
  rw [Bool.eq_false_iff]
  exact fun horphan => ((orphaned_iff pre _ _).mp horphan).2.1 hactive

theorem kept_of_empty (hd : d ∈ networkDescriptions) (updated : Bool) (pre : String) (h : c.appStats = ∅) :
    orphaned pre (c.snapshot updated).listing (pre ++ sensorId d appName iface) = false := by
  obtain ⟨hall,hcomp,hfunc⟩ := networkDescription hd
  have hplatform : d ∈ platformDescriptions := List.mem_append_left _ hall
  obtain ⟨_,hpath,href⟩ := appStats_iff d hplatform
  rw [Bool.eq_false_iff]
  intro horphan
  have hbase := ((Snapshot.orphaned_id_iff hplatform (href hfunc).1 pre _).mp horphan).2.2
  rcases Snapshot.live_of_key hall hbase with hdisabled | ⟨_,hrows | ⟨_,hnil,_⟩⟩
  · exact (Snapshot.owner_of_disabled hdisabled).2 (hpath.mp hfunc)
  · rw [hpath.mp hfunc,rows_snapshot,h] at hrows
    exact hrows rfl
  · exact hcomp hnil

end Sensors

section Runs
variable {pre : String} {s t : State} {e : Event} {appName iface : String}

/-- The app has reported the interface since the last reload, and nothing ended it since. -/
def Fresh (appName iface : String) : History → Prop :=
  Since (fun p => ¬ Ends appName iface p ∧ ¬ Reloads p) (Latest (Reports appName iface))

structure Inv (s : State) : Prop where
  fresh : ∀ appName iface, Fresh appName iface s.history → .containers ∈ s.coordinator.monitored ∧
    appName ∈ collectCurrentAppNames s.coordinator.app ∧ iface ∈ interfacesOf s.coordinator.appStats appName
  rows : ∀ appName iface, iface ∈ interfacesOf s.coordinator.appStats appName → EverReported appName iface s.history
  accounted : Accounted s

theorem inv_init (h : (system pre).init s) : Inv s := by
  obtain ⟨_,hstats,hregistered,hhistory⟩ := h
  constructor
  · intro appName iface hfresh
    rw [hhistory,Fresh,since_nil] at hfresh
    exact absurd hfresh not_latest_nil
  · intro appName iface h
    rw [hstats] at h
    simp [interfacesOf,interfaces,networksOf] at h
  · intro id hid
    rw [hregistered] at hid
    cases hid

theorem listed_next {c : Coordinator} (happ : appName ∈ collectCurrentAppNames c.app)
    (hends : ¬ Ends appName iface (c,e))
    (he : ¬ Reloads (c,e)) : appName ∈ collectCurrentAppNames (c.next e).app := by
  cases e with
  | reload monitored => exact absurd ⟨monitored,rfl⟩ he
  | refreshApp apps =>
    by_contra hgone
    exact hends (Or.inl ⟨apps,rfl,hgone⟩)
  | getAppStats _ _ | discover | cleanup _ => exact happ

theorem fresh_next (hs : Inv s) (h : Fresh appName iface (next pre s e).history) :
    .containers ∈ (next pre s e).coordinator.monitored ∧
      appName ∈ collectCurrentAppNames (next pre s e).coordinator.app ∧
      iface ∈ interfacesOf (next pre s e).coordinator.appStats appName := by
  rcases since_cons.mp h with hlatest | ⟨⟨hends,hreload⟩,hfresh⟩
  · obtain ⟨happ,names,hnames,hiface⟩ := latest_cons.mp hlatest
    obtain ⟨hcont,_,messages,he,_⟩ := exists_of_lastReport hnames
    have hreload : ¬ Reloads (s.coordinator,e) := by
      rintro ⟨monitored,hr⟩
      rw [he] at hr
      cases hr
    have hends : ¬ Ends appName iface (s.coordinator,e) := by
      rintro (⟨apps,hr,_⟩ | ⟨names',hnames',hnot⟩)
      · rw [he] at hr
        cases hr
      · obtain rfl : names = names' := Option.some.inj (hnames.symm.trans hnames')
        exact hnot hiface
    refine ⟨(monitored_next hreload).symm ▸ hcont,listed_next happ hends hreload,?_⟩
    have hnext := interfacesOf_next hcont happ hreload
    rw [hnames,Option.getD_some] at hnext
    exact hnext.symm ▸ hiface
  · obtain ⟨hcont,happ,hiface⟩ := hs.fresh appName iface hfresh
    refine ⟨(monitored_next hreload).symm ▸ hcont,listed_next happ hends hreload,?_⟩
    have hnext := interfacesOf_next hcont happ hreload
    cases hlast : lastReport (s.coordinator.processed e) appName with
    | none =>
      rw [hlast,Option.getD_none] at hnext
      exact hnext.symm ▸ hiface
    | some names =>
      have hmem : iface ∈ names := by
        by_contra hnot
        exact hends (Or.inr ⟨names,hlast,hnot⟩)
      rw [hlast,Option.getD_some] at hnext
      exact hnext.symm ▸ hmem

theorem rows_next (hs : Inv s) (h : iface ∈ interfacesOf (next pre s e).coordinator.appStats appName) :
    EverReported appName iface (next pre s e).history := by
  rcases interface_of_next h with hrow | hreport
  · exact (hs.rows appName iface hrow).cons trivial
  · exact Since.now (latest_cons.mpr hreport)

theorem registered_next {id : String} (h : id ∈ (next pre s e).registered) : id ∈ s.registered ∨
    ∃ d ∈ networkDescriptions, id ∈ (s.coordinator.snapshot true).discoverAppStats d := by
  cases e with
  | discover =>
    rcases List.mem_append.mp h with hold | hnew
    · exact Or.inl hold
    · exact Or.inr (List.mem_flatMap.mp hnew)
  | cleanup updated => exact Or.inl (List.mem_filter.mp h).1
  | refreshApp _ | getAppStats _ _ | reload _ => exact Or.inl h

theorem inv_next (hs : Inv s) : Inv (next pre s e) := by
  refine ⟨fun _ _ h => fresh_next hs h,fun _ _ h => rows_next hs h,fun id hid => ?_⟩
  rcases registered_next hid with hold | ⟨d,hd,hnew⟩
  · obtain ⟨d,hd,appName,iface,rfl,hever⟩ := hs.accounted id hold
    exact ⟨d,hd,appName,iface,rfl,hever.cons trivial⟩
  · obtain ⟨appName,iface,hiface,rfl⟩ := (mem_discovered hd true).mp hnew
    exact ⟨d,hd,appName,iface,rfl,(hs.rows appName iface hiface).cons trivial⟩

theorem inv_of_reach {ok : State → Event → Prop} (hr : (system pre).Reach ok s) : Inv s :=
  hr.invariant (fun _ h => inv_init h) (fun hs _ he => Option.some.inj he ▸ inv_next hs)

theorem kept_next (hs : Inv s) (hok : Refreshed s e) : Kept s (next pre s e) := by
  intro d hd appName iface hid howed
  cases e with
  | discover => exact List.mem_append_left _ hid
  | refreshApp _ | getAppStats _ _ | reload _ => exact hid
  | cleanup updated =>
    refine List.mem_filter.mpr ⟨hid,?_⟩
    rw [Bool.not_eq_true']
    by_cases hempty : s.coordinator.appStats = ∅
    · exact kept_of_empty hd updated pre hempty
    · cases updated with
      | false => rfl
      | true =>
        have hfresh := howed.and (hok rfl hempty d hd appName iface hid howed)
        exact kept_of_interface hd true pre (hs.fresh appName iface hfresh).2.2

/-- A sensor goes only after its app is gone or runs without the interface, along the runs whose
cleanups have statistics only when each interface was reported since the last reload. -/
theorem kept_of_reach (pre : String) (s t : State) (e : Event) (hr : (system pre).Reach Refreshed s)
    (hok : Refreshed s e)
    (he : (system pre).step s e = some t) : Kept s t ∧ Accounted s := by
  obtain rfl : next pre s e = t := Option.some.inj he
  exact ⟨kept_next (inv_of_reach hr) hok,(inv_of_reach hr).accounted⟩

theorem reach_foldl {ok : State → Event → Prop} (hr : (system pre).Reach ok s) (events : List Event)
    (hok : ∀ s, ∀ e ∈ events, ok s e) : (system pre).Reach ok (events.foldl (next pre) s) := by
  induction events generalizing s with
  | nil => exact hr
  | cons e rest ih => exact ih (hr.step (hok s e (by simp)) rfl) (fun s' e' he => hok s' e' (by simp [he]))

end Runs

def fresh : State := ⟨{ monitored := [.containers] },[],[]⟩

def webApp : Rows := [("web",⟨[("name","web")],[]⟩)]
def webRuns : Event :=
  .getAppStats true (some [[some ⟨[("app_name","web")],[("networks",[some [("interface_name","eth0")]])]⟩]])
def webStopped : Event := .getAppStats true (some [[some ⟨[("app_name","web")],[("networks",[])]⟩]])

def webRx : EntityDescription :=
  { key := "app_stats_network_rx", dataPath := "app_stats", dataReference := some "interface_name",
    dataDynamicKeys := true, dataCompositeReferences := ["networks","interface_name"], func := .appStatsSensor }

def stopped : State := [.refreshApp webApp,webRuns,.discover,webStopped].foldl (next "guid-") fresh

def reloaded : State := [.reload [.containers],.refreshApp webApp,webStopped].foldl (next "guid-") stopped

theorem not_ends {p : Coordinator × Event} {appName iface : String} (hlisted : ∀ apps, p.2 = .refreshApp apps →
    appName ∈ collectCurrentAppNames apps)
    (hlast : lastReport (p.1.processed p.2) appName = none) : ¬ Ends appName iface p := by
  rintro (⟨apps,he,hgone⟩ | ⟨names,hnames,_⟩)
  · exact hgone (hlisted apps he)
  · rw [hlast] at hnames
    cases hnames

theorem owed_stopped : Owed "web" "eth0" stopped.history := by
  have hreports : Latest (Reports "web" "eth0") ([.refreshApp webApp,webRuns].foldl (next "guid-") fresh).history :=
    ⟨_,_,rfl,by decide,["eth0"],by decide,by decide⟩
  refine ((Since.now hreports).cons (not_ends ?_ rfl)).cons (not_ends ?_ (by decide))
  · intro apps he
    cases he
  · intro apps he
    cases he

theorem owed_reloaded : Owed "web" "eth0" reloaded.history := by
  refine ((owed_stopped.cons (not_ends ?_ rfl)).cons (not_ends ?_ rfl)).cons (not_ends ?_ (by decide))
  · intro apps he
    cases he
  · intro apps he
    cases he
    decide
  · intro apps he
    cases he

theorem refreshed_of_ne {s : State} {e : Event} (h : e ≠ .cleanup true) : Refreshed s e := fun he => absurd he h

theorem kept_of_reach_stopped : Kept stopped (next "guid-" stopped (.cleanup true)) ∧ Accounted stopped := by
  have hreload : ∀ p ∈ stopped.history, ¬ Reloads p := by
    rintro p hp ⟨monitored,he⟩
    simp only [stopped,List.foldl_cons,List.foldl_nil,next,fresh,List.mem_cons,List.not_mem_nil,or_false] at hp
    rcases hp with rfl | rfl | rfl | rfl <;> cases he
  refine kept_of_reach "guid-" stopped _ (.cleanup true) (reach_foldl (.init ⟨rfl,rfl,rfl,
    rfl⟩) _ (fun s e he => refreshed_of_ne ?_)) ?_ rfl
  · simp only [List.mem_cons,List.not_mem_nil,or_false] at he
    rcases he with rfl | rfl | rfl | rfl <;> exact nofun
  · intro _ _ d hd appName iface _ howed
    exact howed.mono (fun p hp _ => hreload p hp)

/-- A stopped app loses its sensors with the first statistics after a reload. -/
theorem not_kept_of_reload : ¬ ∀ (pre : String) (s t : State) (e : Event), (system pre).Reachable s →
    (system pre).step s e = some t →
    Kept s t ∧ Accounted s := by
  intro hall
  have hreach : (system "guid-").Reachable reloaded :=
    reach_foldl (reach_foldl (.init ⟨rfl,rfl,rfl,rfl⟩) _ (fun _ _ _ => trivial)) _ (fun _ _ _ => trivial)
  obtain ⟨hkept,_⟩ := hall "guid-" reloaded _ (.cleanup true) hreach rfl
  have hgone : sensorId webRx "web" "eth0" ∉ (next "guid-" reloaded (.cleanup true)).registered := by decide +kernel
  exact hgone (hkept webRx (by decide +kernel) "web" "eth0" (by decide +kernel) owed_reloaded)

end TruenasCE.AppStats
