import TruenasCE.ApiParser.Value
import TruenasCE.Library.Separator

/-! # Uids of app networks

An app and one of its interfaces are packed into one uid. The name of the app may hold the
separator, that of an interface has no ":".
-/
namespace TruenasCE.AppStats
open Library ApiParser

def appStatsNetworkUidSeparator : String := "::"

def composeAppNetworkUid (baseUid interfaceName : String) : String :=
  baseUid ++ appStatsNetworkUidSeparator ++ interfaceName

/-- `None` stands for both parts. -/
def parseAppNetworkUid (uid : String) : Option (String × String) :=
  match rpartition appStatsNetworkUidSeparator.toList uid.toList with
  | some (baseUid,iface) =>
    if baseUid ≠ [] ∧ iface ≠ [] then some (String.ofList baseUid,String.ofList iface) else none
  | none => none

/-- A network row under the name, and what `_resolve_app_network_data` makes of it. -/
def mergedRow (mainData : Fields) (interfaceName : String) : Value → Option Fields
  | .dict net =>
    if ((net.lookup "interface_name").getD .none).eq (.str interfaceName)
    then some ((Mapping.set mainData "interface_name" (.str interfaceName)).update net) else none
  | _ => none

def resolveAppNetworkData (uid : String) (appStats : Value) : Option Fields :=
  match parseAppNetworkUid uid,appStats with
  | some (baseUid,interfaceName),.dict rows =>
    match rows.lookup baseUid with
    | some (.dict mainData) =>
      match mainData.lookup "networks" with
      | some (.list networks) => networks.findSome? (mergedRow mainData interfaceName)
      | _ => none
    | _ => none
  | _,_ => none

example : parseAppNetworkUid (composeAppNetworkUid "a::b:" "eth0") = some ("a::b:","eth0") := by decide

def Carries (iface : String) (net : Value) (fields : Fields) : Prop :=
  net = .dict fields ∧ fields.lookup "interface_name" = some (.str iface)

structure FirstRow (appStats : Value) (appName iface : String) (entry net : Fields) : Prop where
  listed : ∃ rows, appStats = .dict rows ∧ rows.lookup appName = some (.dict entry)
  first : ∃ before row after, entry.lookup "networks" = some (.list (before ++ row :: after)) ∧
    Carries iface row net ∧ ∀ other ∈ before, ∀ fields, ¬ Carries iface other fields

def Overlaid (entry net result : Fields) : Prop := ∀ field, result.lookup field = (net.lookup field).or (entry.lookup field)

section Rows
variable {appStats : Value} {appName iface : String} {entry net result : Fields}

theorem toList_appStatsNetworkUidSeparator : appStatsNetworkUidSeparator.toList = [':'] ++ [':'] := rfl

theorem toList_composeAppNetworkUid (baseUid iface : String) :
    (composeAppNetworkUid baseUid iface).toList = baseUid.toList ++ ([':'] ++ [':'] ++ iface.toList) := by
  rw [composeAppNetworkUid,String.toList_append,String.toList_append,List.append_assoc,
    toList_appStatsNetworkUidSeparator]

theorem parse_compose (happ : appName ≠ "") (hne : iface ≠ "") (hcolon : ':' ∉ iface.toList) :
    parseAppNetworkUid (composeAppNetworkUid appName iface) = some (appName,iface) := by
  have hsplit : rpartition appStatsNetworkUidSeparator.toList (composeAppNetworkUid appName iface).toList =
      some (appName.toList,iface.toList) := by
    rw [toList_composeAppNetworkUid,toList_appStatsNetworkUidSeparator]
    exact rpartition_append hcolon appName.toList
  rw [parseAppNetworkUid,hsplit]
  simp [happ,hne]

theorem mergedRow_eq_some_iff {net : Value} : mergedRow entry iface net = some result ↔
    ∃ fields, Carries iface net fields ∧ result = (Mapping.set entry "interface_name" (.str iface)).update fields := by
  unfold mergedRow Carries
  split
  · rename_i fields
    cases hname : fields.lookup "interface_name" with
    | none => simp [hname]
    | some name =>
      by_cases heq : name = .str iface
      · rw [if_pos (by simp [heq])]
        refine ⟨fun h => ⟨fields,⟨rfl,hname.trans (congrArg some heq)⟩,(Option.some.inj h).symm⟩,?_⟩
        rintro ⟨_,⟨hfields,_⟩,rfl⟩
        rw [Value.dict.inj hfields]
      · simp [hname,heq]
  · rename_i hno
    simp only [reduceCtorEq,false_iff,not_exists,not_and]
    rintro fields ⟨rfl,_⟩
    exact absurd rfl (hno fields)

theorem overlaid_mergedRow (h : Carries iface (.dict net) net) :
    Overlaid entry net ((Mapping.set entry "interface_name" (.str iface)).update net) := by
  intro field
  rw [Mapping.lookup_update,Mapping.lookup_set]
  by_cases hfield : field = "interface_name"
  · rw [hfield,h.2]
    rfl
  · rw [if_neg hfield]

theorem resolve_compose (happ : appName ≠ "") (hne : iface ≠ "") (hcolon : ':' ∉ iface.toList) :
    resolveAppNetworkData (composeAppNetworkUid appName iface) appStats = some result ↔
      ∃ entry net, FirstRow appStats appName iface entry net ∧
        result = (Mapping.set entry "interface_name" (.str iface)).update net := by
  unfold resolveAppNetworkData
  rw [parse_compose happ hne hcolon]
  constructor
  · intro h
    split at h
    · rename_i baseUid interfaceName rows hparse
      obtain ⟨rfl,rfl⟩ := Prod.mk.inj (Option.some.inj hparse)
      split at h
      · rename_i entry hentry
        split at h
        · rename_i networks hnetworks
          obtain ⟨before,row,after,rfl,hrow,hbefore⟩ := List.findSome?_eq_some_iff.mp h
          obtain ⟨net,hcarries,rfl⟩ := mergedRow_eq_some_iff.mp hrow
          refine ⟨entry,net,⟨⟨rows,rfl,hentry⟩,before,row,after,hnetworks,hcarries,?_⟩,rfl⟩
          intro other hother fields hc
          have hnone := hbefore other hother
          rw [mergedRow_eq_some_iff.mpr ⟨fields,hc,rfl⟩] at hnone
          cases hnone
        · cases h
      · cases h
    · cases h
  · rintro ⟨entry,net,⟨⟨rows,rfl,hentry⟩,before,row,after,hnetworks,hcarries,hbefore⟩,rfl⟩
    simp only [hentry,hnetworks]
    refine List.findSome?_eq_some_iff.mpr ⟨before,row,after,rfl,mergedRow_eq_some_iff.mpr ⟨net,hcarries,rfl⟩,?_⟩
    intro other hother
    cases hrow : mergedRow entry iface other with
    | none => rfl
    | some result =>
      obtain ⟨fields,hc,_⟩ := mergedRow_eq_some_iff.mp hrow
      exact absurd hc (hbefore other hother fields)

/-- A composed uid parses to its parts, no other pair of them has it, and in every table it stands for
the first row of the app under the interface name. -/
theorem uid_faithful (happ : appName ≠ "") (hne : iface ≠ "") (hcolon : ':' ∉ iface.toList) :
    parseAppNetworkUid (composeAppNetworkUid appName iface) = some (appName,iface) ∧
      (∀ appName' iface', appName' ≠ "" → iface' ≠ "" → ':' ∉ iface'.toList →
        composeAppNetworkUid appName' iface' = composeAppNetworkUid appName iface → appName' = appName ∧ iface' = iface) ∧
      ∀ appStats, (∀ entry net, FirstRow appStats appName iface entry net →
          ∃ result, resolveAppNetworkData (composeAppNetworkUid appName iface) appStats = some result ∧
            Overlaid entry net result) ∧
        ((∀ entry net, ¬ FirstRow appStats appName iface entry net) →
          resolveAppNetworkData (composeAppNetworkUid appName iface) appStats = none) := by
  refine ⟨parse_compose happ hne hcolon,fun appName' iface' happ' hne' hcolon' heq => ?_,fun appStats => ⟨?_,?_⟩⟩
  · have hparse := parse_compose happ' hne' hcolon'
    rw [heq,parse_compose happ hne hcolon] at hparse
    obtain ⟨hname,hiface⟩ := Prod.mk.inj (Option.some.inj hparse)
    exact ⟨hname.symm,hiface.symm⟩
  · intro entry net hrow
    refine ⟨_,(resolve_compose happ hne hcolon).mpr ⟨entry,net,hrow,rfl⟩,overlaid_mergedRow ⟨rfl,?_⟩⟩
    obtain ⟨_,_,_,_,hcarries,_⟩ := hrow.first
    exact hcarries.2
  · intro hno
    rw [Option.eq_none_iff_forall_ne_some]
    intro result hresult
    obtain ⟨entry,net,hrow,_⟩ := (resolve_compose happ hne hcolon).mp hresult
    exact hno entry net hrow

/-- An app whose name ends with the first half of the separator. -/
theorem uid_faithful_colon : parseAppNetworkUid (composeAppNetworkUid "db:" "eth0") = some ("db:","eth0") :=
  (uid_faithful (by decide) (by decide) (by decide)).1

end Rows

end TruenasCE.AppStats
