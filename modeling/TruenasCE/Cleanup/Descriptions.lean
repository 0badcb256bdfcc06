import TruenasCE.Identity.UniqueIds

/-! # Entity descriptions

The descriptions of every platform, as far as the unique ids, the discovery of entities and
the cleanup of the registry read them.
-/
namespace TruenasCE.Cleanup
open Identity

/-- The entity classes, by how they compute their unique id. -/
inductive EntityClass
  | entity
  | appStatsSensor
  deriving DecidableEq, Repr

/-- `valueFn` and `dataAttribute` (`data_attribute` or `data_is_on`) are read for keyless
descriptions only, those without a `data_reference`. -/
structure EntityDescription extends Description where
  dataDynamicKeys : Bool := false
  func : EntityClass := .entity
  valueFn : Bool := false
  dataAttribute : Option String := none
  dataExclude : Option (String × String) := none
  deriving DecidableEq, Repr

def sensorTypes : List EntityDescription := [
  { key := "alerts", dataPath := "alerts", dataAttribute := some "count" },
  { key := "system_smb_connections", dataPath := "smb", dataAttribute := some "connections" },
  { key := "system_uptime", dataPath := "system_info", valueFn := true },
  { key := "system_cpu_temperature", dataPath := "system_info", valueFn := true },
  { key := "system_load_shortterm", dataPath := "system_info", valueFn := true },
  { key := "system_load_midterm", dataPath := "system_info", valueFn := true },
  { key := "system_load_longterm", dataPath := "system_info", valueFn := true },
  { key := "system_cpu_usage", dataPath := "system_info", valueFn := true },
  { key := "system_memory_usage", dataPath := "system_info", valueFn := true },
  { key := "system_cache_size-arc_value", dataPath := "system_info", valueFn := true },
  { key := "system_memory_total", dataPath := "system_info", valueFn := true },
  { key := "system_memory_free", dataPath := "system_info", valueFn := true },
  { key := "dataset", dataPath := "dataset", dataReference := some "id" },
  { key := "disk", dataPath := "disk", dataReference := some "identifier" },
  { key := "pool_free", dataPath := "pool", dataReference := some "guid" },
  { key := "pool_size", dataPath := "pool", dataReference := some "guid" },
  { key := "pool_allocated", dataPath := "pool", dataReference := some "guid" },
  { key := "pool_usage", dataPath := "pool", dataReference := some "guid" },
  { key := "pool_errors", dataPath := "pool", dataReference := some "guid" },
  { key := "pool_fragmentation", dataPath := "pool", dataReference := some "guid" },
  { key := "pool_scrub_start", dataPath := "pool", dataReference := some "guid" },
  { key := "pool_scrub_end", dataPath := "pool", dataReference := some "guid" },
  { key := "pool_scrub_state", dataPath := "pool", dataReference := some "guid" },
  { key := "pool_scrub_progress", dataPath := "pool", dataReference := some "guid" },
  { key := "cloudsync", dataPath := "cloudsync", dataReference := some "id" },
  { key := "replication", dataPath := "replication", dataReference := some "id" },
  { key := "rsynctask", dataPath := "rsynctask", dataReference := some "id" },
  { key := "snapshottask", dataPath := "snapshottask", dataReference := some "id" },
  { key := "traffic_rx", dataPath := "interface", dataReference := some "id",
    dataExclude := some ("link_state","LINK_STATE_DOWN") },
  { key := "traffic_tx", dataPath := "interface", dataReference := some "id",
    dataExclude := some ("link_state","LINK_STATE_DOWN") },
  { key := "ups_charge", dataPath := "ups", dataAttribute := some "battery_charge" },
  { key := "ups_runtime", dataPath := "ups", dataAttribute := some "runtime_seconds" },
  { key := "ups_load", dataPath := "ups", dataAttribute := some "load" },
  { key := "ups_voltage", dataPath := "ups", dataAttribute := some "voltage" },
  { key := "ups_current", dataPath := "ups", dataAttribute := some "current" },
  { key := "ups_frequency", dataPath := "ups", dataAttribute := some "frequency" },
  { key := "ups_temperature", dataPath := "ups", dataAttribute := some "temperature" },
  { key := "directoryservices", dataPath := "directoryservices", dataReference := some "id" },
  { key := "certificate_expiry", dataPath := "certificate", dataReference := some "identity",
    dataLegacyReference := some "name" },
  { key := "certificate_expiration_time", dataPath := "certificate", dataReference := some "identity",
    dataLegacyReference := some "name" },
  { key := "arc_data_hit_percent", dataPath := "arc", dataAttribute := some "data_hit_percent" },
  { key := "arc_metadata_hit_percent", dataPath := "arc", dataAttribute := some "metadata_hit_percent" },
  { key := "arc_l2_hit_percent", dataPath := "arc", dataAttribute := some "l2_hit_percent" },
  { key := "app_stats_cpu", dataPath := "app_stats", dataReference := some "app_name", dataDynamicKeys := true,
    func := .appStatsSensor },
  { key := "app_stats_memory", dataPath := "app_stats", dataReference := some "app_name", dataDynamicKeys := true,
    func := .appStatsSensor },
  { key := "app_stats_network_rx", dataPath := "app_stats", dataReference := some "interface_name",
    dataCompositeReferences := ["networks","interface_name"], dataDynamicKeys := true, func := .appStatsSensor },
  { key := "app_stats_network_tx", dataPath := "app_stats", dataReference := some "interface_name",
    dataCompositeReferences := ["networks","interface_name"], dataDynamicKeys := true, func := .appStatsSensor },
  { key := "app_stats_blkio_read", dataPath := "app_stats", dataReference := some "app_name", dataDynamicKeys := true,
    func := .appStatsSensor },
  { key := "app_stats_blkio_write", dataPath := "app_stats", dataReference := some "app_name", dataDynamicKeys := true,
    func := .appStatsSensor }]

def binarySensorTypes : List EntityDescription := [
  { key := "disk_issues", dataPath := "alerts", dataAttribute := some "disk_issues" },
  { key := "pool_healthy", dataPath := "pool", dataReference := some "guid" },
  { key := "vm", dataPath := "vm", dataReference := some "id" },
  { key := "container", dataPath := "container", dataReference := some "id" },
  { key := "service", dataPath := "service", dataReference := some "id" },
  { key := "app", dataPath := "app", dataReference := some "id" },
  { key := "interface", dataPath := "interface", dataReference := some "id" },
  { key := "directoryservices", dataPath := "directoryservices", dataReference := some "id" },
  { key := "certificate_expired", dataPath := "certificate", dataReference := some "identity",
    dataLegacyReference := some "name" }]

/-- `switch_types.SENSOR_TYPES` -/
def switchTypes : List EntityDescription := [
  { key := "service_switch", dataPath := "service", dataReference := some "id" },
  { key := "cloudsync_switch", dataPath := "cloudsync", dataReference := some "id" },
  { key := "cronjob_switch", dataPath := "cronjob", dataReference := some "id" }]

/-- `update_types.SENSOR_TYPES` -/
def updateTypes : List EntityDescription := [
  { key := "system_update", dataPath := "system_info", dataAttribute := some "update_available" },
  { key := "app_update", dataPath := "app", dataReference := some "id" }]

/-- `button_types.SENSOR_TYPES` -/
def buttonTypes : List EntityDescription := [
  { key := "snapshottask_run", dataPath := "snapshottask", dataReference := some "id" },
  { key := "rsync_run", dataPath := "rsynctask", dataReference := some "id" },
  { key := "replication_run", dataPath := "replication", dataReference := some "id" },
  { key := "cloudsync_run", dataPath := "cloudsync", dataReference := some "id" },
  { key := "cronjob_run", dataPath := "cronjob", dataReference := some "id" },
  { key := "scrub_run", dataPath := "scrub", dataReference := some "id" },
  { key := "scrub_pause", dataPath := "scrub", dataReference := some "id" },
  { key := "scrub_resume", dataPath := "scrub", dataReference := some "id" },
  { key := "scrub_stop", dataPath := "scrub", dataReference := some "id" }]

def allDescriptions : List EntityDescription := sensorTypes ++ binarySensorTypes ++ switchTypes ++ updateTypes

def platformDescriptions : List EntityDescription := allDescriptions ++ buttonTypes

inductive MonitorGroup
  | ups
  | vms
  | containers
  | cloudsync
  | replication
  | rsync
  | snapshots
  | cronjobs
  | datasets
  | directoryServices
  deriving DecidableEq, Repr

def groupDataPaths : List (MonitorGroup × String) :=
  [(.ups,"ups"),(.vms,"vm"),(.containers,"container"),(.cloudsync,"cloudsync"),(.replication,"replication"),
    (.rsync,"rsynctask"),    (.snapshots,"snapshottask"),(.cronjobs,"cronjob"),(.datasets,"dataset"),(.directoryServices,"directoryservices")]

def owner (path : String) : Option MonitorGroup :=
  if path = "app_stats" then some .containers else (groupDataPaths.find? (fun g => g.2 = path)).map Prod.fst

/-- `__post_init__` warns of none of them. -/
theorem valid_platformDescriptions : ∀ d ∈ platformDescriptions,
    (d.dataCompositeReferences ≠ [] → d.dataDynamicKeys = true ∧ d.dataCompositeReferences.length = 2) ∧
    (d.dataDynamicKeys = true → d.dataReference.isSome = true ∨ d.dataCompositeReferences ≠ []) := by decide

theorem appStats_iff : ∀ d ∈ platformDescriptions,
    (d.func = .appStatsSensor ↔ d.dataDynamicKeys = true) ∧ (d.func = .appStatsSensor ↔ d.dataPath = "app_stats") ∧
    (d.func = .appStatsSensor → d.dataReference.isSome = true ∧ d.dataExclude = none) := by decide

theorem reference_of_button : ∀ d ∈ buttonTypes, d.dataReference.isSome = true ∧ d.func = .entity := by decide

theorem dash_notMem_key : ∀ d ∈ platformDescriptions,
    d.dataReference.isSome = true ∨ owner d.dataPath ≠ none → '-' ∉ d.key.toList := by decide +kernel

theorem key_of_button : ∀ d ∈ buttonTypes, d.key ∉ allDescriptions.map (fun d => d.key) := by decide

def EntityDescription.shape (d : EntityDescription) : String × Option String × List String × EntityClass :=
  (d.dataPath,d.dataReference,d.dataCompositeReferences,d.func)

theorem lookup_key :
    ∀ d ∈ allDescriptions, (allDescriptions.map (fun d => (d.key,d.shape))).lookup d.key = some d.shape := by
  decide +kernel

theorem shape_eq_of_key {d d' : EntityDescription} (hd : d ∈ allDescriptions) (hd' : d' ∈ allDescriptions)
    (h : d.key = d'.key) :
    d.shape = d'.shape := by
  have hlookup := lookup_key d hd
  rw [h,lookup_key d' hd'] at hlookup
  exact (Option.some.inj hlookup).symm

end TruenasCE.Cleanup
