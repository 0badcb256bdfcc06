import TruenasCE.Migration.Remap

/-! # The rollback and its safety snapshots

`async_rollback_to_legacy` removes the entry, re-enables the legacy entry and remaps the
legacy entities that are registered by then. The safety snapshots go at the end of every
run that gets there, also when records found no legacy entity: they are kept until every
record is dealt with exactly when each record of each removed snapshot has one.
-/
namespace TruenasCE.Migration
open Library

structure Snapshot where
  key : String
  records : List Record
  deriving DecidableEq, Repr

/-- The data of the config entry the rollback reads. -/
structure EntryData where
  entryId : String
  legacyEntryId : Option String
  records : List Record
  distinct : Distinct records

/-- What Home Assistant answers during a run: `enable` is the answer of
`async_set_disabled_by`, and `registry` is what is registered behind it. -/
structure Surroundings where
  legacyEntryExists : Bool
  legacyCodeInstalled : Bool
  removeRaises : Bool
  enable : Option Bool
  registry : Registry
  snapshots : List Snapshot
  listable : Bool
  removable : String → Bool

/-- A run of the rollback; it returned no value when it raised. -/
structure RollbackRun where
  returned : Option Bool
  registry : Registry
  outcomes : List Outcome
  snapshots : List Snapshot

def backupKeyPrefix : String := "truenas_ce_migration_backup"

def entryBackupPrefix (entryId : String) : String := backupKeyPrefix ++ "_" ++ entryId

/-- Whether `_remove_backups` removes the snapshot. -/
def Surroundings.removes (ha : Surroundings) (pre : String) (keepKey : Option String) (s : Snapshot) : Bool :=
  ha.listable && (stripPrefix pre s.key).isSome && decide (keepKey ≠ some s.key) && ha.removable s.key

def Surroundings.removeBackups (ha : Surroundings) (pre : String) (keepKey : Option String) : List Snapshot :=
  ha.snapshots.filter (fun s => !ha.removes pre keepKey s)

def Surroundings.ends (ha : Surroundings) (returned : Option Bool) : RollbackRun :=
  ⟨returned,ha.registry,[],ha.snapshots⟩

def asyncRollbackToLegacy (entry : EntryData) (ha : Surroundings) : RollbackRun :=
  match entry.legacyEntryId with
  | none => ha.ends (some false)
  | some legacyEntryId =>
    if legacyEntryId = "" then ha.ends (some false)
    else if !ha.legacyEntryExists then ha.ends (some false)
    else if !ha.legacyCodeInstalled then ha.ends (some false)
    else if ha.removeRaises then ha.ends none
    else if ha.enable.isNone then ha.ends none
    else
      match remapAndRestore ha.registry (pairsOf ha.registry Record.legacyKey entry.records) with
      | .error reg => ⟨none,reg,[],ha.snapshots⟩
      | .ok (reg,outcomes) => ⟨some true,reg,outcomes,ha.removeBackups (entryBackupPrefix entry.entryId) none⟩

/-- The run gets to the remap. -/
def Reaches (entry : EntryData) (ha : Surroundings) : Prop :=
  (∃ legacyEntryId ∈ entry.legacyEntryId, legacyEntryId ≠ "") ∧ ha.legacyEntryExists = true ∧
    ha.legacyCodeInstalled = true ∧ ha.removeRaises = false ∧ ha.enable.isSome = true

section Runs
variable {entry : EntryData} {ha : Surroundings}

/-- A run that does not get to the remap changes nothing. -/
theorem rollback_of_not_reaches (h : ¬ Reaches entry ha) :
    (asyncRollbackToLegacy entry ha).snapshots = ha.snapshots := by
  unfold asyncRollbackToLegacy
  split
  · rfl
  rename_i legacyEntryId hid
  split
  · rfl
  split
  · rfl
  split
  · rfl
  split
  · rfl
  split
  · rfl
  · refine absurd ⟨⟨legacyEntryId,hid,‹_›⟩,?_⟩ h
    simp_all [Option.isSome_iff_ne_none]

/-- A run that gets to the remap does not raise there. -/
theorem rollback_of_reaches (h : Reaches entry ha) : ∃ mid r parked outcomes,
    asyncRollbackToLegacy entry ha = ⟨some true,r,outcomes,ha.removeBackups (entryBackupPrefix entry.entryId) none⟩ ∧
      park ha.registry 0 (pairsOf ha.registry Record.legacyKey entry.records) = .ok (mid,parked) ∧
      Parked ha.registry mid Record.legacyKey (pairsOf ha.registry Record.legacyKey entry.records) parked ∧
      Settled mid r Record.legacyKey parked outcomes := by
  obtain ⟨⟨legacyEntryId,hid,hne⟩,he,hc,hr,hen⟩ := h
  obtain ⟨mid,r,parked,outcomes,hremap,hrest⟩ := remapAndRestore_spec (remappable_legacy ha.registry entry.distinct)
  refine ⟨mid,r,parked,outcomes,?_,hrest⟩
  have hid' : entry.legacyEntryId = some legacyEntryId := hid
  have hen' : ha.enable.isNone = false := by simpa using hen
  simp [asyncRollbackToLegacy,hid',hne,he,hc,hr,hen',hremap]

end Runs

def RollbackRun.RestoredTo (run : RollbackRun) (r : Record) : Prop := Outcome.restored r ∈ run.outcomes ∧
  ∃ e, run.registry.find r.legacyKey = some e ∧ e.entityId = r.entityId ∧ e.apply r.updates = e

def RollbackRun.Reported (run : RollbackRun) (r : Record) : Prop := ∃ id, Outcome.occupied r id ∈ run.outcomes

def BackupKept (ha : Surroundings) (run : RollbackRun) : Prop :=
  ∀ s ∈ ha.snapshots, s ∉ run.snapshots → ∀ r ∈ s.records, run.RestoredTo r ∨ run.Reported r

/-- Each record of each snapshot that would be removed belongs to the entry and its legacy
entity is registered again. -/
def AllRegistered (entry : EntryData) (ha : Surroundings) : Prop :=
  ∀ s ∈ ha.snapshots, ha.removes (entryBackupPrefix entry.entryId) none s = true →
    ∀ r ∈ s.records, r ∈ entry.records ∧ (ha.registry.getEntityId r.legacyKey).isSome = true

section Outcomes
variable {entry : EntryData} {ha : Surroundings}

theorem dealt_iff (h : Reaches entry ha) (x : Record) :
    ((asyncRollbackToLegacy entry ha).RestoredTo x ∨ (asyncRollbackToLegacy entry ha).Reported x) ↔
      x ∈ entry.records ∧ (ha.registry.getEntityId x.legacyKey).isSome = true := by
  obtain ⟨mid,r,parked,outcomes,hrun,_,hp,hs⟩ := rollback_of_reaches h
  rw [hrun]
  constructor
  · intro h
    have hx : x ∈ outcomes.map Outcome.record := by
      rcases h with ⟨hx,_⟩ | ⟨id,hx⟩
      · exact List.mem_map.mpr ⟨_,hx,rfl⟩
      · exact List.mem_map.mpr ⟨_,hx,rfl⟩
    rw [hs.records] at hx
    obtain ⟨p,hpm,rfl⟩ := List.mem_map.mp hx
    obtain ⟨m,hm,_,hmr⟩ := hp.mem_iff.mp ⟨p,hpm,rfl,rfl⟩
    obtain ⟨hrec,hid,_⟩ := mem_pairsOf.mp hm
    rw [hmr] at hrec hid
    exact ⟨hrec,by rw [hid]; rfl⟩
  · rintro ⟨hx,hreg⟩
    obtain ⟨id,hid⟩ := Option.isSome_iff_exists.mp hreg
    have hm : (⟨id,x.entityId,x⟩ : Move) ∈ pairsOf ha.registry Record.legacyKey entry.records :=
      mem_pairsOf.mpr ⟨hx,hid,rfl⟩
    obtain ⟨p,hpm,ht,hr⟩ := hp.mem_iff.mpr ⟨_,hm,rfl,rfl⟩
    simp only at ht hr
    rcases hs.outcome p hpm with ⟨ho,hat⟩ | ⟨ho,_⟩
    · obtain ⟨e,he,heid⟩ := Option.map_eq_some_iff.mp hat
      have hover := carries_of_settled hs hpm he
      rw [hr] at ho he hover
      exact Or.inl ⟨ho,e,he,heid.trans ht,hover⟩
    · rw [hr] at ho
      exact Or.inr ⟨_,ho⟩

theorem gone_iff (h : Reaches entry ha) {x : Snapshot} (hx : x ∈ ha.snapshots) :
    x ∉ (asyncRollbackToLegacy entry ha).snapshots ↔
    ha.removes (entryBackupPrefix entry.entryId) none x = true := by
  obtain ⟨_,_,_,_,hrun,_⟩ := rollback_of_reaches h
  rw [hrun]
  simp [Surroundings.removeBackups,hx]

end Outcomes

theorem backupKept_iff (entry : EntryData) (ha : Surroundings) :
    BackupKept ha (asyncRollbackToLegacy entry ha) ↔ (Reaches entry ha → AllRegistered entry ha) := by
  by_cases hreach : Reaches entry ha
  · simp only [BackupKept,dealt_iff hreach,hreach,true_implies,AllRegistered]
    exact forall_congr' (fun s => forall_congr' (fun hmem => by rw [gone_iff hreach hmem]))
  · simp only [hreach,false_implies,iff_true]
    intro s hmem hgone
    rw [rollback_of_not_reaches hreach] at hgone
    exact absurd hmem hgone

def cpuRecord : Record := ⟨"nas-cpu","sensor",⟨"sensor","nas_cpu"⟩,some "CPU",none,none,false,none⟩
def cpuEntry : EntryData := ⟨"ce",some "old",[cpuRecord],⟨by decide,by decide,by decide⟩⟩
def cpuSnapshot : Snapshot := ⟨"truenas_ce_migration_backup_ce_20260901_120000",[cpuRecord]⟩

/-- The legacy entry is re-enabled and its setup is retried later: nothing is registered yet. -/
def notReady : Surroundings := ⟨true,true,false,some false,Registry.empty,[cpuSnapshot],true,fun _ => true⟩

/-- Without a registered legacy entity there are no pairs, and the snapshot goes. -/
theorem backup_lost_of_notReady : ¬ ∀ entry ha, BackupKept ha (asyncRollbackToLegacy entry ha) := by
  intro hall
  have hout : (asyncRollbackToLegacy cpuEntry notReady).outcomes = [] := by decide
  rcases hall cpuEntry notReady cpuSnapshot (by decide) (by decide) cpuRecord (by decide) with ⟨h,_⟩ | ⟨_,h⟩
  · rw [hout] at h
    cases h
  · rw [hout] at h
    cases h

end TruenasCE.Migration
