import TruenasCE.AppStats.Retention
import TruenasCE.AppStats.Stopped

/-! # Statistics of apps read from JSON

The messages that the coordinator retains are JSON, those that the network sensors depend on are the texts in
them. As long as the names of interfaces are texts, the coordinator keeps the same apps with the same interfaces
on both sides.
-/
namespace TruenasCE.AppStats.Retention
open Library ApiParser

def textOf : Value → Option String
  | .str text => some text
  | _ => none

def textField (fields : Fields) (name : String) : Identity.Fields :=
  ((textOf (dictGet fields name)).map (fun text => (name,text))).toList

def netView : Value → Option Identity.Fields
  | .dict net => some (textField net "interface_name")
  | _ => none

def networksView (app : Fields) : List (String × List (Option Identity.Fields)) :=
  match dictGet app "networks" with
  | .list nets => [("networks",nets.map netView)]
  | _ => []

def appView (app : Fields) : Identity.Vals := ⟨textField app "name" ++ textField app "app_name",networksView app⟩

def entryView : Value → Option Identity.Vals
  | .dict app => some (appView app)
  | _ => none

def appsView (apps : Mapping String Value) : Cleanup.Rows := apps.map (fun p => (p.1,(entryView p.2).getD ⟨[],[]⟩))

def messageView (msg : Value) : Message := (entriesIn msg).map entryView

/-- A network without an interface, or with a text for its name -/
def NamedNet (net : Value) : Prop := hasInterface net = true → ∃ text, interfaceName net = .str text

def Named (entry : Value) : Prop :=
  ∀ app nets, entry = .dict app → dictGet app "networks" = .list nets → ∀ net ∈ nets, NamedNet net

/-- The same apps have statistics, with the same interfaces. -/
structure ReadAs (rows : Rows) (read : Dict String Identity.Vals) : Prop where
  keys : ∀ name, (rows.lookup name).isSome = (read.lookup name).isSome
  interfaces : ∀ name, interfaces (networksOf rows name) = (interfacesOf read name).map .str

section Views
variable {app : Fields} {entry net : Value} {nets : List Value} {appName : String}

theorem lookup_textField (fields : Fields) (name : String) :
    (textField fields name).lookup name = textOf (dictGet fields name) := by
  unfold textField
  cases textOf (dictGet fields name) <;> simp

theorem lookup_textField_append (fields : Fields) {name other : String} (h : other ≠ name) (rest : Identity.Fields) :
    (textField fields name ++ rest).lookup other = rest.lookup other := by
  unfold textField
  cases textOf (dictGet fields name) with
  | none => rfl
  | some text => simp [List.lookup_cons,beq_false_of_ne h]

theorem lookup_append_textField (fields : Fields) (name : String) {rest : Identity.Fields} (h : rest.lookup name = none) :
    (textField fields name ++ rest).lookup name = textOf (dictGet fields name) := by
  unfold textField
  cases textOf (dictGet fields name) with
  | none => simpa using h
  | some text => simp

theorem lookup_textField_of_ne (fields : Fields) {name other : String} (h : other ≠ name) :
    (textField fields name).lookup other = none := by
  have happend := lookup_textField_append fields h []
  simpa using happend

theorem textOf_truthy (value : Value) : (textOf value).filter (fun text => text ≠ "") = none ↔
    ∀ text, value = .str text → text = "" := by
  cases value <;> simp [textOf,Option.filter_eq_none_iff]

theorem getAppIdentifier_eq (app : Fields) : getAppIdentifier app =
    ((textOf (dictGet app "name")).filter (fun text => text ≠ "")).or
      ((textOf (dictGet app "app_name")).filter (fun text => text ≠ "")) := by
  have hlegacy : getAppIdentifier.legacy app = (textOf (dictGet app "app_name")).filter (fun text => text ≠ "") := by
    unfold getAppIdentifier.legacy
    cases dictGet app "app_name" with
    | str text => by_cases h : text = "" <;> simp [textOf,Option.filter_some,h]
    | none | bool | int | float | list | dict | datetime => rfl
  unfold getAppIdentifier
  rw [hlegacy]
  cases dictGet app "name" with
  | str text => by_cases h : text = "" <;> simp [textOf,Option.filter_some,h]
  | none | bool | int | float | list | dict | datetime => rfl

theorem appIdentifier_appView (app : Fields) : Cleanup.Snapshot.appIdentifier (appView app) = getAppIdentifier app := by
  have hne : "name" ≠ "app_name" := by decide
  have hname := lookup_append_textField app "name" (lookup_textField_of_ne app hne)
  have happ := (lookup_textField_append app hne.symm (textField app "app_name")).trans (lookup_textField app "app_name")
  rw [getAppIdentifier_eq,Cleanup.Snapshot.appIdentifier,appView,hname,happ]

theorem appIdentifier_entryView (entry : Value) :
    (entryView entry).bind Cleanup.Snapshot.appIdentifier = (about entry).map Prod.fst := by
  cases entry with
  | dict app => simp [entryView,about,appIdentifier_appView,Option.map_map,Function.comp_def]
  | none | bool | int | float | str | list | datetime => rfl

theorem interfaceName_netView (h : NamedNet net) : (AppStats.interfaceName (netView net)).map Value.str =
    if hasInterface net = true then some (interfaceName net) else none := by
  cases net with
  | dict fields =>
    have hlookup : AppStats.interfaceName (netView (.dict fields)) =
        (textOf (dictGet fields "interface_name")).filter (fun name => name ≠ "") := by
      rw [AppStats.interfaceName,netView,Option.bind_some,lookup_textField]
    rw [hlookup]
    split
    · rename_i hhas
      obtain ⟨text,htext⟩ := h hhas
      have hfield : dictGet fields "interface_name" = .str text := htext
      have hne : text ≠ "" := by
        rintro rfl
        simp [hasInterface,hfield,Value.truthy] at hhas
      simp [hfield,interfaceName,textOf,hne]
    · rename_i hnot
      have hnone : (textOf (dictGet fields "interface_name")).filter (fun name => name ≠ "") = none := by
        rw [textOf_truthy]
        intro text htext
        by_contra hne
        exact hnot (by simp [hasInterface,htext,Value.truthy,hne])
      rw [hnone]
      rfl
  | none | bool | int | float | str | list | datetime => rfl

theorem interfaces_netView (h : ∀ net ∈ nets, NamedNet net) :
    interfaces (nets.filter hasInterface) = (AppStats.interfaces (nets.map netView)).map .str := by
  induction nets with
  | nil => rfl
  | cons net rest ih =>
    obtain ⟨hnet,hrest⟩ := List.forall_mem_cons.mp h
    have hname := interfaceName_netView hnet
    rw [interfaces,AppStats.interfaces] at ih ⊢
    rw [List.map_cons,List.filterMap_cons,List.filter_cons]
    by_cases hhas : hasInterface net = true
    · rw [if_pos hhas] at hname
      obtain ⟨name,hsome,hstr⟩ := Option.map_eq_some_iff.mp hname
      rw [if_pos hhas,hsome,List.map_cons,List.map_cons,ih hrest,hstr]
    · rw [if_neg hhas] at hname
      rw [if_neg hhas,Option.map_eq_none_iff.mp hname,ih hrest]

theorem interfaces_entry (h : Named (.dict app)) :
    interfaces (filterAppNetworks ((app.lookup "networks").getD (.list []))) =
      (AppStats.interfaces (AppStats.networksOf (entryView (.dict app)))).map .str := by
  have hget : ∀ value, app.lookup "networks" = value → dictGet app "networks" = value.getD .none := by
    rintro _ rfl
    rfl
  have hview : AppStats.networksOf (entryView (.dict app)) = ((networksView app).lookup "networks").getD [] := rfl
  rw [hview,networksView]
  cases hnets : app.lookup "networks" with
  | none =>
    rw [hget _ hnets]
    rfl
  | some value =>
    rw [hget _ hnets,Option.getD_some,Option.getD_some]
    cases value with
    | list nets => exact interfaces_netView (h app nets rfl (hget _ hnets))
    | none | bool | int | float | str | dict | datetime => rfl

end Views

section Simulation
variable {fl : Floats} {rows next : Rows} {read : Dict String Identity.Vals} {entry : Value}

theorem dict_of_about {app : Fields} {appName : String} (h : about entry = some (appName,app)) :
    entry = .dict app ∧ getAppIdentifier app = some appName := by
  unfold about at h
  split at h
  · obtain ⟨name,hname,heq⟩ := Option.map_eq_some_iff.mp h
    cases heq
    exact ⟨rfl,hname⟩
  · cases h

theorem reported_entryView {app : Fields} {appName : String} (h : Named (.dict app))
    (ha : getAppIdentifier app = some appName) : reported app =
      (AppStats.reported appName (entryView (.dict app))).map (fun names => names.map .str) := by
  have hinterfaces := interfaces_entry h
  have happ : (entryView (.dict app)).bind Cleanup.Snapshot.appIdentifier = some appName := by
    rw [appIdentifier_entryView,about,ha]
    rfl
  unfold reported AppStats.reported
  dsimp only
  rw [happ]
  by_cases hnil : AppStats.interfaces (AppStats.networksOf (entryView (.dict app))) = []
  · have hempty : filterAppNetworks ((app.lookup "networks").getD (.list [])) = [] := by
      rw [hnil] at hinterfaces
      exact List.map_eq_nil_iff.mp hinterfaces
    rw [hempty,List.isEmpty_nil,if_pos rfl,if_neg (fun hc => hc.2 hnil)]
    rfl
  · have hne : filterAppNetworks ((app.lookup "networks").getD (.list [])) ≠ [] := by
      intro hempty
      rw [hempty] at hinterfaces
      exact hnil (List.map_eq_nil_iff.mp hinterfaces.symm)
    rw [if_neg (by simpa using hne),if_pos ⟨rfl,hnil⟩,hinterfaces]
    rfl

theorem ReadAs.upsert (h : ReadAs rows read) (hnamed : Named entry) (hnext : upsertAppStatsEntry fl rows entry = .ok next) :
    ReadAs next (AppStats.upsertAppStatsEntry read (entryView entry)) := by
  have hid := appIdentifier_entryView entry
  rcases upsert_cases hnext with ⟨ha,rfl⟩ | ⟨appName,app,ha,rfl⟩
  · rw [ha] at hid
    have hsame : AppStats.upsertAppStatsEntry read (entryView entry) = read := by
      unfold AppStats.upsertAppStatsEntry
      rw [hid]
      rfl
    rwa [hsame]
  · obtain ⟨hentry,hname⟩ := dict_of_about ha
    subst hentry
    rw [ha] at hid
    refine ⟨fun name => ?_,fun name => ?_⟩
    · rw [Mapping.lookup_set,AppStats.upsertAppStatsEntry,hid]
      by_cases hn : name = appName
      · subst hn
        simp
      · rw [if_neg hn]
        simpa [AList.lookup_insert_ne hn] using h.keys name
    · rw [interfacesOf_upsert]
      by_cases hn : name = appName
      · subst hn
        rw [networksOf_set_self,interfaces_keptNetworks,reported_entryView hnamed hname,h.interfaces]
        cases AppStats.reported name (entryView (.dict app)) <;> rfl
      · have hother : AppStats.reported name (entryView (.dict app)) = none := by
          unfold AppStats.reported
          rw [hid,if_neg (fun hc => hn (Option.some.inj hc.1).symm)]
        rw [networksOf_set_of_ne hn,hother]
        exact h.interfaces name

variable (fl) in
theorem ReadAs.processEntries {s : State} {entries : List Value} (h : ReadAs s.appStats read)
    (hnamed : ∀ entry ∈ entries, Named entry) (hnone : (s.processEntries fl entries).2 = none) :
    ReadAs (s.processEntries fl entries).1.appStats
      ((entries.map entryView).foldl AppStats.upsertAppStatsEntry read) ∧ (s.processEntries fl entries).1.app = s.app := by
  induction entries generalizing s read with
  | nil => exact ⟨h,rfl⟩
  | cons entry rest ih =>
    obtain ⟨hentry,hrest⟩ := List.forall_mem_cons.mp hnamed
    unfold State.processEntries at hnone ⊢
    cases hu : upsertAppStatsEntry fl s.appStats entry with
    | error raised => simp [hu] at hnone
    | ok rows =>
      simp only [hu] at hnone ⊢
      exact ih (h.upsert hentry hu) hrest hnone

variable (fl) in
theorem ReadAs.processMessages {s : State} {messages : List Value} (h : ReadAs s.appStats read)
    (hnamed : ∀ msg ∈ messages, ∀ entry ∈ entriesIn msg, Named entry)
    (hnone : (s.processAppStatsMessages fl messages).2 = none) :
    ReadAs (s.processAppStatsMessages fl messages).1.appStats
      (AppStats.processAppStatsMessages read (messages.map messageView)) ∧
    (s.processAppStatsMessages fl messages).1.app = s.app := by
  induction messages generalizing s read with
  | nil => exact ⟨h,rfl⟩
  | cons msg rest ih =>
    obtain ⟨hmsg,hrest⟩ := List.forall_mem_cons.mp hnamed
    cases msg with
    | dict fields =>
      by_cases hp : (s.processEntries fl (entriesOf fields)).2 = none
      · obtain ⟨hread,happ⟩ := h.processEntries fl hmsg hp
        rw [processAppStatsMessages_dict hp] at hnone ⊢
        obtain ⟨hread',happ'⟩ := ih hread hrest hnone
        refine ⟨?_,happ'.trans happ⟩
        simpa [AppStats.processAppStatsMessages,messageView,entriesIn,List.foldl_append] using hread'
      · exact absurd hnone (raised_of_processEntries hp)
    | none | bool | int | float | str | list | datetime => cases hnone

theorem collectCurrentAppNames_appsView (apps : Mapping String Value) :
    AppStats.collectCurrentAppNames (appsView apps) = collectCurrentAppNames apps := by
  unfold AppStats.collectCurrentAppNames appsView collectCurrentAppNames
  rw [List.filterMap_map]
  refine List.filterMap_congr (fun p _ => ?_)
  obtain ⟨name,value⟩ := p
  cases value with
  | dict app => exact appIdentifier_appView app
  | none | bool | int | float | str | list | datetime => rfl

theorem ReadAs.prune {s : State} (h : ReadAs s.appStats read) :
    ReadAs s.pruneStaleAppStats.appStats (AppStats.pruneStaleAppStats read (collectCurrentAppNames s.app)) where
  keys name := by
    rw [lookup_prune,AppStats.pruneStaleAppStats,Dict.lookup_drop]
    by_cases hname : name ∈ collectCurrentAppNames s.app
    · simpa [hname] using h.keys name
    · rw [if_neg hname]
      by_cases hkey : name ∈ read
      · rw [if_pos (List.mem_filter.mpr ⟨AList.mem_keys.mp hkey,by simpa using hname⟩)]
        rfl
      · rw [AList.lookup_eq_none.mpr hkey,ite_self]
        rfl
  interfaces name := by
    rw [interfacesOf_prune]
    unfold networksOf
    rw [lookup_prune]
    by_cases hname : name ∈ collectCurrentAppNames s.app
    · rw [if_pos hname,if_pos hname]
      exact h.interfaces name
    · rw [if_neg hname,if_neg hname]
      rfl

end Simulation

/-- Both coordinators list the same apps, and know the same interfaces of them. -/
structure Views (monitored : Bool) (s : State) (c : Coordinator) : Prop where
  app : appsView s.app = c.app
  monitored : monitored = decide (.containers ∈ c.monitored)
  appStats : ReadAs s.appStats c.appStats

def eventView : Event → AppStats.Event
  | .refreshApp apps => .refreshApp (appsView apps)
  | .getAppStats connected messages => .getAppStats connected (messages.map (fun messages => messages.map messageView))

/-- The interfaces in the messages have texts for names, and the processing of the messages raises nothing. -/
def Plain (fl : Floats) (monitored : Bool) (s : State) : Event → Prop
  | .refreshApp _ => True
  | .getAppStats connected messages => (s.getAppStats fl monitored connected messages).2 = none ∧
      ∀ batch ∈ messages, ∀ msg ∈ batch, ∀ entry ∈ entriesIn msg, Named entry

theorem readAs_empty : ReadAs [] ∅ := ⟨fun _ => rfl,fun _ => rfl⟩

theorem Views.getAppStats {fl : Floats} {monitored : Bool} {s : State} {c : Coordinator} {connected : Bool}
    {messages : Option (List Value)} (h : Views monitored s c)
    (hnone : (s.getAppStats fl monitored connected messages).2 = none)
    (hnamed : ∀ batch ∈ messages, ∀ msg ∈ batch, ∀ entry ∈ entriesIn msg, Named entry) :
    (s.getAppStats fl monitored connected messages).1.app = s.app ∧
      ReadAs (s.getAppStats fl monitored connected messages).1.appStats
        (c.getAppStats connected (messages.map (fun messages => messages.map messageView))) := by
  have hnames := collectCurrentAppNames_appsView s.app
  rw [h.app] at hnames
  by_cases hcont : .containers ∈ c.monitored
  · have hmonitored : monitored = true := by simp [h.monitored,hcont]
    subst hmonitored
    cases connected with
    | false =>
      rw [getAppStats_disconnected hcont]
      exact ⟨rfl,h.appStats⟩
    | true =>
      by_cases happ : s.app = []
      · have hnil : c.app = [] := by simp [← h.app,happ,appsView]
        have hprune : s.getAppStats fl true true messages = (s.pruneStaleAppStats,none) := by
          simp [State.getAppStats,happ]
        rw [getAppStats_noApps hcont hnil,hprune]
        have hread := h.appStats.prune
        rw [happ] at hread
        exact ⟨rfl,hread⟩
      · have hne : c.app ≠ [] := by simpa [← h.app,appsView] using happ
        cases messages with
        | none =>
          have hsame : s.getAppStats fl true true none = (s,none) := by simp [State.getAppStats,happ]
          rw [hsame,Option.map_none,getAppStats_unread hcont hne]
          exact ⟨rfl,h.appStats⟩
        | some messages =>
          have hrun : s.getAppStats fl true true (some messages) =
              if (s.processAppStatsMessages fl messages).2 = none then
                ((s.processAppStatsMessages fl messages).1.pruneStaleAppStats,none)
              else s.processAppStatsMessages fl messages := by
            simp only [State.getAppStats,Bool.not_true,Bool.false_eq_true,if_false,List.isEmpty_iff,happ]
            cases hp : s.processAppStatsMessages fl messages with
            | mk t raised => cases raised <;> rfl
          have hok : (s.processAppStatsMessages fl messages).2 = none := by
            by_contra hraised
            rw [hrun,if_neg hraised] at hnone
            exact hraised hnone
          obtain ⟨hread,hsame⟩ := h.appStats.processMessages fl (hnamed messages rfl) hok
          have htyped : c.getAppStats true (some (messages.map messageView)) = AppStats.pruneStaleAppStats
              (AppStats.processAppStatsMessages c.appStats (messages.map messageView))
              (AppStats.collectCurrentAppNames c.app) := by
            simp [Coordinator.getAppStats,hcont,hne]
          rw [hrun,if_pos hok,Option.map_some,htyped,hnames,← hsame]
          exact ⟨rfl,hread.prune⟩
  · have hmonitored : monitored = false := by simp [h.monitored,hcont]
    subst hmonitored
    rw [getAppStats_unmonitored hcont]
    exact ⟨rfl,readAs_empty⟩

theorem Views.step {fl : Floats} {monitored : Bool} {s : State} {c : Coordinator} {event : Event} (h : Views monitored s c)
    (hplain : Plain fl monitored s event) : Views monitored (step fl monitored s event) (c.next (eventView event)) := by
  cases event with
  | refreshApp apps => exact ⟨rfl,h.monitored,h.appStats⟩
  | getAppStats connected messages =>
    obtain ⟨happ,hread⟩ := h.getAppStats hplain.1 hplain.2
    refine ⟨?_,h.monitored,hread⟩
    rw [Retention.step,happ]
    exact h.app

theorem views_init {c : Coordinator} (happ : c.app = []) (hstats : c.appStats = ∅) :
    Views (decide (.containers ∈ c.monitored)) ⟨[],[],[]⟩ c := ⟨happ.symm,rfl,hstats ▸ readAs_empty⟩

def PlainRun (fl : Floats) (monitored : Bool) : State → List Event → Prop
  | _, [] => True
  | s, event :: rest => Plain fl monitored s event ∧ PlainRun fl monitored (Retention.step fl monitored s event) rest

/-- Along every lifetime with plain messages the sensors depend on the apps and interfaces that are retained. -/
theorem views_foldl {fl : Floats} {monitored : Bool} {s : State} {c : Coordinator} {events : List Event}
    (h : Views monitored s c) (hplain : PlainRun fl monitored s events) :
    Views monitored (events.foldl (Retention.step fl monitored) s) ((events.map eventView).foldl Coordinator.next c) := by
  induction events generalizing s c with
  | nil => exact h
  | cons event rest ih => exact ih (h.step hplain.1) hplain.2

end TruenasCE.AppStats.Retention
