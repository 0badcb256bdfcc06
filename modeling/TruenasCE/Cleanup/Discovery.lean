import TruenasCE.Cleanup.Descriptions
import TruenasCE.Identity.Stability

/-! # Discovery of entities and cleanup of orphans

Both compute unique ids from the same state of the coordinator: the platforms to create
entities, the cleanup to tell which entities of the registry may stay. Ids are written
without the prefix of the identity.
-/
namespace TruenasCE.Cleanup
open Library Migration Identity

abbrev Rows := List (String × Vals)

/-- What discovery and cleanup read of a coordinator. A data path holds rows by uid or the values
of keyless entities; `systemValues` are the keys whose `value_fn` gives a value. -/
structure Snapshot where
  lastUpdateSuccess : Bool := true
  removeInactiveNic : Bool := false
  monitored : List MonitorGroup
  objects : List (String × Rows) := []
  attributes : List (String × Fields) := []
  systemValues : List String := []

namespace Snapshot
variable (s : Snapshot)

/-- `data.get(path)` as a dict of rows, empty if it is missing -/
def rows (path : String) : Rows := (s.objects.lookup path).getD []

def disabledDataPaths : List String := (groupDataPaths.filter (fun g => g.1 ∉ s.monitored)).map Prod.snd

def appIdentifier (app : Vals) : Option String :=
  ((app.fields.lookup "name").filter (fun name =>
    name ≠ "")).or ((app.fields.lookup "app_name").filter (fun name => name ≠ ""))

def knownAppNames : List String :=
  if .containers ∈ s.monitored then (s.rows "app").filterMap (fun row => appIdentifier row.2) else []

/-- `_is_uid_excluded` under the behavior that hides inactive interfaces -/
def excluded (d : EntityDescription) (fields : Fields) : Bool :=
  s.removeInactiveNic && d.dataExclude.any (fun (key,value) => decide (fields.lookup key = some value))

end Snapshot

/-- A unique id without the prefix of the identity. -/
def EntityDescription.id (d : EntityDescription) (reference : String) : String :=
  suffix (fun r => r) d.key (some reference)

namespace Snapshot
variable (s : Snapshot)

/-- `unique_id` of a `TrueNASEntity`; an empty uid counts as none. -/
def entityId (d : EntityDescription) (row : String × Vals) : String :=
  if row.1 = "" then d.key else d.id (row.2.reference d.dataReference row.1)

def newReferencedEntities (d : EntityDescription) (rows : Rows) : List String :=
  (rows.filter (fun row => !s.excluded d row.2.fields)).map (entityId d)

def skipKeylessDescription (d : EntityDescription) (values : Fields) : Bool :=
  if d.valueFn then decide (d.key ∉ s.systemValues)
  else d.dataAttribute.any (fun name => (values.lookup name).isNone)

def collectNewEntities (d : EntityDescription) : List String :=
  if d.func = .appStatsSensor then []
  else if d.dataReference.isSome then
    match s.objects.lookup d.dataPath with
    | none => []
    | some rows => s.newReferencedEntities d rows
  else
    match s.attributes.lookup d.dataPath with
    | none => []
    | some values => if s.skipKeylessDescription d values then [] else [d.key]

/-- `_discover_network_sensors` for the row of an app -/
def networkSensors (d : EntityDescription) (row : String × Vals) : List String :=
  ((row.2.containers.lookup "networks").getD []).filterMap (fun net =>
    ((net.bind (fun fields => fields.lookup "interface_name")).filter (fun name => name ≠ "")).map (fun name =>
      d.id (row.1 ++ "::" ++ name)))

def discoverAppStats (d : EntityDescription) : List String :=
  if d.func ≠ .appStatsSensor then []
  else if d.dataCompositeReferences ≠ [] then
    ((s.rows "app_stats").filter (fun row => row.2 ≠ ⟨[],[]⟩)).flatMap (networkSensors d)
  else s.knownAppNames.map d.id

def discovered : List String :=
  platformDescriptions.flatMap (fun d => s.collectNewEntities d ++ s.discoverAppStats d)

end Snapshot

namespace Snapshot
variable (s : Snapshot)

def referencedUniqueIds (d : EntityDescription) (rows : Rows) : List String :=
  (rows.filter (fun row => !s.excluded d row.2.fields)).map (fun row => d.id (row.2.reference d.dataReference row.1))

def compositeReferences (d : EntityDescription) (rows : Rows) : List String :=
  match d.dataCompositeReferences with
  | [container,leaf] => rows.flatMap (fun row => ((row.2.containers.lookup container).getD []).filterMap (fun item =>
      ((item.filter (fun fields => !s.excluded d fields)).bind (fun fields =>
        fields.lookup leaf)).map (fun ref => d.id (row.1 ++ "::" ++ ref))))
  | _ => []

/-- `_process_static_description`: active ids and live bases -/
def processStaticDescription (d : EntityDescription) : List String × List String :=
  if d.dataReference.isNone then
    if d.dataPath ∈ s.disabledDataPaths then ([],[d.key]) else ([d.key],[])
  else if s.rows d.dataPath = [] ∧ d.dataPath ∉ s.disabledDataPaths then ([],[])
  else (if d.dataPath ∈ s.disabledDataPaths then [] else s.referencedUniqueIds d (s.rows d.dataPath),[d.key])

def processDynamicDescription (d : EntityDescription) : List String × List String :=
  if !d.dataDynamicKeys then ([],[])
  else if d.dataPath ∈ s.disabledDataPaths then ([],[d.key])
  else if d.func = .appStatsSensor ∧ d.dataCompositeReferences = [] then
    if s.knownAppNames = [] then ([],[]) else (s.knownAppNames.map d.id,[d.key])
  else if d.dataReference.isNone then ([],[d.key])
  else if s.rows d.dataPath = [] then ([],[])
  else if d.dataCompositeReferences ≠ [] then (s.compositeReferences d (s.rows d.dataPath),[d.key])
  else (s.referencedUniqueIds d (s.rows d.dataPath),[d.key])

/-- `_collect_active_unique_ids`; what the platforms make of the state is of no concern here. -/
def listing : Listing where
  data := s.objects.map (fun p => (p.1,p.2.map (fun row => (row.1,some row.2))))
  updated := s.lastUpdateSuccess
  active := allDescriptions.flatMap (fun d => (s.processStaticDescription d).1 ++ (s.processDynamicDescription d).1)
  liveBases := allDescriptions.flatMap (fun d => (s.processStaticDescription d).2 ++ (s.processDynamicDescription d).2)
  objects := []

def cleanupOrphanedEntities (pre entryId : String) (reg : Registry) : Registry :=
  reg.removeWhere (fun e => e.OfEntry entryId && orphaned pre s.listing e.uniqueId)

end Snapshot
end TruenasCE.Cleanup
