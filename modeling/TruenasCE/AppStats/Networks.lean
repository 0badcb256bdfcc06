import TruenasCE.Cleanup.Complete
import TruenasCE.Library.Overlay
import TruenasCE.Library.Dict

/-! # Statistics of apps

The rows of `ds["app_stats"]` and what the messages of the subscription make of the networks
in them. The measured values are left out.
-/
namespace TruenasCE.AppStats
open Library Identity Cleanup

/-- The entries of a message; one that is not a dict is `none`, and a message without a list of
fields has none. -/
abbrev Message := List (Option Vals)

/-- A non-empty `interface_name`. -/
def interfaceName (net : Option Fields) : Option String :=
  (net.bind (fun fields => fields.lookup "interface_name")).filter (fun name => name ≠ "")

def networksOf (vals : Option Vals) : List (Option Fields) :=
  (vals.bind (fun v => v.containers.lookup "networks")).getD []

def interfaces (nets : List (Option Fields)) : List String := nets.filterMap interfaceName

def filterAppNetworks (nets : List (Option Fields)) : List (Option Fields) :=
  nets.filter (fun net => (interfaceName net).isSome)

def staleAppNetworks (rows : Dict String Vals) (appName : String) : List (Option Fields) :=
  (filterAppNetworks (networksOf (rows.lookup appName))).map (fun net =>
    (interfaceName net).map (fun name => [("interface_name",name),("stale","True")]))

def upsertAppStatsEntry (rows : Dict String Vals) (app : Option Vals) : Dict String Vals :=
  match app.bind Snapshot.appIdentifier with
  | none => rows
  | some appName =>
    let networks := filterAppNetworks (networksOf app)
    rows.insert appName ⟨[("app_name",appName)],
      [("networks",if networks = [] then staleAppNetworks rows appName else networks)]⟩

def processAppStatsMessages (rows : Dict String Vals) (messages : List Message) : Dict String Vals :=
  messages.flatten.foldl upsertAppStatsEntry rows

def collectCurrentAppNames (app : Rows) : List String := app.filterMap (fun row => Snapshot.appIdentifier row.2)

def pruneStaleAppStats (rows : Dict String Vals) (names : List String) : Dict String Vals :=
  Dict.drop (rows.keys.filter (fun name => name ∉ names)) rows

/-- The interfaces that an entry reports for the app; an entry without any says nothing of them. -/
def reported (appName : String) (entry : Option Vals) : Option (List String) :=
  if entry.bind Snapshot.appIdentifier = some appName ∧
    interfaces (networksOf entry) ≠ [] then some (interfaces (networksOf entry)) else none

def lastReport (messages : List Message) (appName : String) : Option (List String) :=
  lastSome (reported appName) messages.flatten

def interfacesOf (rows : Dict String Vals) (appName : String) : List String :=
  interfaces (networksOf (rows.lookup appName))

theorem interfaces_filterAppNetworks (nets : List (Option Fields)) :
    interfaces (filterAppNetworks nets) = interfaces nets := by
  rw [interfaces,interfaces,filterAppNetworks,List.filterMap_filter]
  refine List.filterMap_congr (fun net _ => ?_)
  cases interfaceName net <;> rfl

theorem interfaces_stale (rows : Dict String Vals) (appName : String) :
    interfaces (staleAppNetworks rows appName) = interfacesOf rows appName := by
  rw [interfacesOf,← interfaces_filterAppNetworks (networksOf (rows.lookup appName)),staleAppNetworks,
    interfaces,interfaces,List.filterMap_map]
  refine List.filterMap_congr (fun net _ => ?_)
  rw [Function.comp_apply]
  cases hname : interfaceName net with
  | none => rfl
  | some name =>
    have hne : name ≠ "" := by simpa using (Option.filter_eq_some_iff.mp hname).2
    simp [interfaceName,hne]

theorem filterAppNetworks_eq_nil (nets : List (Option Fields)) :
    filterAppNetworks nets = [] ↔ interfaces nets = [] := by
  simp [filterAppNetworks,interfaces,List.filterMap_eq_nil_iff,List.filter_eq_nil_iff]

theorem interfacesOf_upsert (rows : Dict String Vals) (entry : Option Vals) (appName : String) :
    interfacesOf (upsertAppStatsEntry rows entry) appName = (reported appName entry).getD
      (interfacesOf rows appName) := by
  unfold upsertAppStatsEntry reported
  split
  · rename_i hnone
    simp [hnone]
  · rename_i name hname
    rw [hname]
    by_cases heq : name = appName
    · subst heq
      have hrow : ∀ nets, interfacesOf (rows.insert name ⟨[("app_name",name)],
        [("networks",nets)]⟩) name = interfaces nets := by
        intro nets
        rw [interfacesOf,AList.lookup_insert]
        simp [networksOf]
      by_cases hnets : interfaces (networksOf entry) = []
      · simp [hrow,(filterAppNetworks_eq_nil _).mpr hnets,interfaces_stale,hnets]
      · have hfilter := mt (filterAppNetworks_eq_nil _).mp hnets
        simp [hrow,hfilter,interfaces_filterAppNetworks,hnets]
    · rw [interfacesOf,AList.lookup_insert_ne (Ne.symm heq),if_neg (fun h => heq (Option.some.inj h.1))]
      rfl

theorem interfacesOf_process (rows : Dict String Vals) (messages : List Message) (appName : String) :
    interfacesOf (processAppStatsMessages rows messages) appName = (lastReport messages appName).getD
      (interfacesOf rows appName) :=
  foldl_eq_lastSome upsertAppStatsEntry (fun rows => interfacesOf rows appName) (reported appName)
    (fun rows entry => interfacesOf_upsert rows entry appName) messages.flatten rows

theorem interfacesOf_prune (rows : Dict String Vals) (names : List String) (appName : String) :
    interfacesOf (pruneStaleAppStats rows names) appName = if appName ∈ names then interfacesOf rows appName else [] := by
  rw [interfacesOf,interfacesOf,pruneStaleAppStats,Dict.lookup_drop]
  by_cases hname : appName ∈ names
  · simp [hname]
  · by_cases hkey : appName ∈ rows
    · rw [if_pos (List.mem_filter.mpr ⟨AList.mem_keys.mp hkey,by simpa using hname⟩),if_neg hname]
      rfl
    · rw [AList.lookup_eq_none.mpr hkey,ite_self,if_neg hname]
      rfl

end TruenasCE.AppStats
