import TruenasCE.Cleanup.Orphans

/-! # Which entities the cleanup removes

An entity whose object is gone, or whose group was disabled, against what the cleanup makes of it.
-/
namespace TruenasCE.Cleanup
open Library Migration Identity

theorem eq_of_append_dash {k k' r r' : List Char} (hk : '-' ∉ k) (hk' : '-' ∉ k')
    (h : k ++ '-' :: r = k' ++ '-' :: r') :
    k = k' ∧ r = r' := by
  have hpre : k ++ ['-'] <+: k' ++ '-' :: r' := ⟨r,by simp [← h]⟩
  obtain rfl := eq_of_dashed hk hk' hpre
  exact ⟨rfl,(List.cons.inj (List.append_cancel_left h)).2⟩

theorem id_inj {d d' : EntityDescription} (hd : '-' ∉ d.key.toList) (hd' : '-' ∉ d'.key.toList) {r r' : String}
    (h : d.id r = d'.id r') : d.key = d'.key ∧ r = r' := by
  have hlist := congrArg String.toList h
  rw [toList_id,toList_id] at hlist
  obtain ⟨hkey,href⟩ := eq_of_append_dash hd hd' hlist
  exact ⟨String.toList_injective hkey,String.toList_injective href⟩

theorem dash_of_keyless : ∀ d ∈ allDescriptions, d.dataReference = none → '-' ∈ d.key.toList →
    d.key = "system_cache_size-arc_value" := by
  decide +kernel

theorem key_notPrefix_cacheSize : ∀ d ∈ platformDescriptions, d.dataReference.isSome = true →
    ¬ d.key.toList ++ ['-'] <+: "system_cache_size-arc_value".toList := by decide +kernel

theorem keyless_key : ∀ d ∈ platformDescriptions, d.dataReference.isSome = true →
    ∀ d' ∈ allDescriptions, d'.dataReference = none →
    ¬ d.key.toList ++ ['-'] <+: d'.key.toList := by
  intro d hd href d' hd' hnone hpre
  have hdash : '-' ∈ d'.key.toList := hpre.subset (by simp)
  rw [dash_of_keyless d' hd' hnone hdash] at hpre
  exact key_notPrefix_cacheSize d hd href hpre

namespace Snapshot
variable (s : Snapshot)

/-- The references of the rows, as `data_reference` has them. -/
def rowReferences (d : EntityDescription) : List String := (s.rows d.dataPath).map (fun row =>
  row.2.reference d.dataReference row.1)

/-- The interfaces of the apps, as `app::interface`. -/
def interfaceReferences : List String :=
  (s.rows "app_stats").flatMap (fun row => ((row.2.containers.lookup "networks").getD []).filterMap (fun net =>
    (net.bind (fun fields => fields.lookup "interface_name")).map (fun name => row.1 ++ "::" ++ name)))

def references (d : EntityDescription) : List String :=
  if d.func = .appStatsSensor then
    if d.dataCompositeReferences = [] then s.knownAppNames else s.interfaceReferences
  else s.rowReferences d

/-- The domain of the description reports objects. -/
def Reports (d : EntityDescription) : Prop :=
  if d.func = .appStatsSensor ∧ d.dataCompositeReferences = [] then s.knownAppNames ≠ [] else s.rows d.dataPath ≠ []

/-- The object is gone while others are reported, or the group that owns the data is disabled. -/
def Gone (d : EntityDescription) (reference : String) : Prop :=
  (s.Reports d ∧ reference ∉ s.references d) ∨ ∃ group, owner d.dataPath = some group ∧ group ∉ s.monitored

/-- The entity is none of a button; one of an app's statistics is of a monitored group, and no row of
statistics stands under its reference. -/
def Cleanable (d : EntityDescription) (reference : String) : Prop :=
  d ∈ allDescriptions ∧ (d.func = .appStatsSensor → .containers ∈ s.monitored ∧ reference ∉ s.rowReferences d)

variable {s} {d : EntityDescription}

theorem disabled_of_owner {path : String} {group : MonitorGroup} (hown : owner path = some group)
    (hpath : path ≠ "app_stats")
    (hgroup : group ∉ s.monitored) : path ∈ s.disabledDataPaths := by
  rw [owner,if_neg hpath,Option.map_eq_some_iff] at hown
  obtain ⟨g,hfind,rfl⟩ := hown
  have hg : g.2 = path := by simpa using List.find?_some hfind
  exact List.mem_map.mpr ⟨g,List.mem_filter.mpr ⟨List.mem_of_find?_eq_some hfind,by simpa using hgroup⟩,hg⟩

theorem mem_static {id : String} (href : d.dataReference.isSome = true) (h : id ∈ (s.processStaticDescription d).1) :
    d.dataPath ∉ s.disabledDataPaths ∧ ∃ reference ∈ s.rowReferences d, id = d.id reference := by
  unfold processStaticDescription at h
  rw [if_neg (by simp [Option.isNone_eq_false_iff.mpr href])] at h
  split at h
  · cases h
  · split at h
    · cases h
    · rename_i henabled
      obtain ⟨row,hrow,rfl⟩ := List.mem_map.mp h
      exact ⟨henabled,_,List.mem_map_of_mem (List.mem_filter.mp hrow).1,rfl⟩

theorem mem_dynamic (hd : d ∈ allDescriptions) {id : String} (h : id ∈ (s.processDynamicDescription d).1) :
    d.func = .appStatsSensor ∧ ∃ reference ∈ s.references d, id = d.id reference := by
  obtain ⟨hdyn,hpath,href⟩ := appStats_iff d (List.mem_append_left _ hd)
  unfold processDynamicDescription at h
  split at h
  · cases h
  rename_i hdynamic
  have happ : d.func = .appStatsSensor := hdyn.mpr (by simpa using hdynamic)
  refine ⟨happ,?_⟩
  rw [references,if_pos happ]
  split at h
  · cases h
  split at h
  · rename_i hstd
    rw [if_pos hstd.2]
    split at h
    · cases h
    · obtain ⟨name,hname,rfl⟩ := List.mem_map.mp h
      exact ⟨name,hname,rfl⟩
  rename_i hstd
  have hcomp : d.dataCompositeReferences ≠ [] := fun h => hstd ⟨happ,h⟩
  rw [if_neg hcomp]
  split at h
  · cases h
  split at h
  · cases h
  obtain ⟨row,hrow,net,hnet,name,hname,rfl⟩ := (mem_compositeReferences hd hcomp).mp h
  refine ⟨row.1 ++ "::" ++ name,List.mem_flatMap.mpr ⟨row,hpath.mp happ ▸ hrow,
    List.mem_filterMap.mpr ⟨net,hnet,?_⟩⟩,rfl⟩
  rw [hname]
  rfl

theorem mem_active_id (hd : d ∈ allDescriptions) (href : d.dataReference.isSome = true) {reference : String}
    (h : d.id reference ∈ s.listing.active) : (d.dataPath ∉ s.disabledDataPaths ∧ reference ∈ s.rowReferences d) ∨
      (d.func = .appStatsSensor ∧ reference ∈ s.references d) := by
  have hplatform : ∀ {d : EntityDescription}, d ∈ allDescriptions → d ∈ platformDescriptions := List.mem_append_left _
  have hdash := dash_notMem_key d (hplatform hd) (Or.inl href)
  obtain ⟨d',hd',hid⟩ := mem_active.mp h
  have hsame : ∀ reference', d'.dataReference.isSome = true → d.id reference = d'.id reference' →
      d'.shape = d.shape ∧ reference = reference' := by
    intro reference' href' he
    obtain ⟨hkey,hr⟩ := id_inj hdash (dash_notMem_key d' (hplatform hd') (Or.inl href')) he
    exact ⟨shape_eq_of_key hd' hd hkey.symm,hr⟩
  rcases hid with hid | hid
  · cases href' : d'.dataReference with
    | none =>
      exfalso
      refine keyless_key d (hplatform hd) href d' hd' href' ?_
      have he : d.id reference = d'.key := by
        unfold processStaticDescription at hid
        rw [if_pos (by simp [href'])] at hid
        split at hid
        · cases hid
        · exact List.mem_singleton.mp hid
      rw [← he,toList_id]
      exact (List.prefix_append_right_inj _).mpr ⟨reference.toList,rfl⟩
    | some field =>
      have hsome : d'.dataReference.isSome = true := by simp [href']
      obtain ⟨henabled,reference',hr,he⟩ := mem_static hsome hid
      obtain ⟨hshape,rfl⟩ := hsame reference' hsome he
      simp only [EntityDescription.shape,Prod.mk.injEq] at hshape
      obtain ⟨hpath,hfield,_,_⟩ := hshape
      rw [rowReferences,hpath,hfield] at hr
      exact Or.inl ⟨hpath ▸ henabled,hr⟩
  · obtain ⟨happ,reference',hr,he⟩ := mem_dynamic hd' hid
    obtain ⟨_,_,hstats⟩ := appStats_iff d' (hplatform hd')
    obtain ⟨hshape,rfl⟩ := hsame reference' (hstats happ).1 he
    simp only [EntityDescription.shape,Prod.mk.injEq] at hshape
    obtain ⟨_,_,hcomp,hfunc⟩ := hshape
    rw [references,if_pos happ,hcomp] at hr
    refine Or.inr ⟨hfunc ▸ happ,?_⟩
    rw [references,if_pos (hfunc ▸ happ)]
    exact hr

theorem live_of_key (hd : d ∈ allDescriptions) (h : d.key ∈ s.listing.liveBases) : s.Live d := by
  obtain ⟨d',hd',hkey,hlive⟩ := mem_liveBases.mp h
  have hshape := shape_eq_of_key hd hd' hkey
  simp only [EntityDescription.shape,Prod.mk.injEq] at hshape
  obtain ⟨hpath,href,hcomp,hfunc⟩ := hshape
  rwa [Live,hpath,href,hcomp,hfunc]

theorem active_of_rowReferences (hd : d ∈ allDescriptions) (happ : d.func = .appStatsSensor) {reference : String}
    (h : reference ∈ s.rowReferences d) : d.id reference ∈ s.listing.active := by
  obtain ⟨_,hpath,hstats⟩ := appStats_iff d (List.mem_append_left _ hd)
  obtain ⟨href,hexclude⟩ := hstats happ
  have henabled : d.dataPath ∉ s.disabledDataPaths := fun hdisabled => (owner_of_disabled hdisabled).2 (hpath.mp happ)
  obtain ⟨row,hrow,rfl⟩ := List.mem_map.mp h
  refine mem_active.mpr ⟨d,hd,Or.inl ?_⟩
  rw [processStaticDescription,if_neg (by simp [Option.isNone_eq_false_iff.mpr href]),
    if_neg (fun h => List.ne_nil_of_mem hrow h.1),
    if_neg henabled]
  exact List.mem_map.mpr ⟨row,List.mem_filter.mpr ⟨hrow,by simp [excluded,hexclude]⟩,rfl⟩

theorem orphaned_of_cleanable (href : d.dataReference.isSome = true) {reference : String}
    (hsuccess : s.lastUpdateSuccess = true)
    (hgone : s.Gone d reference) (h : s.Cleanable d reference) (pre : String) :
    orphaned pre s.listing (pre ++ d.id reference) = true := by
  obtain ⟨hd,happ⟩ := h
  have hplatform : d ∈ platformDescriptions := List.mem_append_left _ hd
  obtain ⟨_,hpath,_⟩ := appStats_iff d hplatform
  refine (orphaned_id_iff hplatform href pre reference).mpr ⟨hsuccess,fun hactive => ?_,mem_liveBases.mpr ⟨d,hd,rfl,?_⟩⟩
  · rcases mem_active_id hd href hactive with ⟨henabled,hrow⟩ | ⟨hfunc,hr⟩
    · by_cases hfunc : d.func = .appStatsSensor
      · exact (happ hfunc).2 hrow
      · rcases hgone with ⟨_,hnot⟩ | ⟨group,hown,hgroup⟩
        · rw [references,if_neg hfunc] at hnot
          exact hnot hrow
        · exact henabled (disabled_of_owner hown (fun h => hfunc (hpath.mpr h)) hgroup)
    · rcases hgone with ⟨_,hnot⟩ | ⟨group,hown,hgroup⟩
      · exact hnot hr
      · rw [owner,if_pos (hpath.mp hfunc)] at hown
        cases hown
        exact hgroup (happ hfunc).1
  · rcases hgone with ⟨hreports,_⟩ | ⟨group,hown,hgroup⟩
    · refine Or.inr ⟨href,?_⟩
      unfold Reports at hreports
      split at hreports
      · rename_i hstd
        exact Or.inr ⟨hstd.1,hstd.2,hreports⟩
      · exact Or.inl hreports
    · refine Or.inl (disabled_of_owner hown (fun hstats => ?_) hgroup)
      rw [owner,if_pos hstats] at hown
      cases hown
      exact hgroup (happ (hpath.mpr hstats)).1

theorem cleanable_of_orphaned (hdisabled : .containers ∉ s.monitored → s.rows "app_stats" = [])
    (hd : d ∈ platformDescriptions)
    (href : d.dataReference.isSome = true) {reference pre : String}
    (h : orphaned pre s.listing (pre ++ d.id reference) = true) :
    s.Cleanable d reference := by
  obtain ⟨_,hactive,hbase⟩ := (orphaned_id_iff hd href pre reference).mp h
  rcases List.mem_append.mp hd with hall | hbutton
  · refine ⟨hall,fun happ => ⟨?_,fun hrow => hactive (active_of_rowReferences hall happ hrow)⟩⟩
    obtain ⟨_,hpath,_⟩ := appStats_iff d hd
    by_contra hcontainers
    rcases live_of_key hall hbase with hpaths | ⟨_,hrows | ⟨_,_,hknown⟩⟩
    · exact (owner_of_disabled hpaths).2 (hpath.mp happ)
    · exact hrows (hpath.mp happ ▸ hdisabled hcontainers)
    · exact hknown (if_neg hcontainers)
  · obtain ⟨d',hd',hkey,_⟩ := mem_liveBases.mp hbase
    exact absurd (List.mem_map.mpr ⟨d',hd',hkey.symm⟩) (key_of_button d hbutton)

/-- An entity whose object is gone is removed exactly if it is none of a button and, for statistics of
an app, its group is monitored and no row stands under its reference. -/
theorem removed_iff (s : Snapshot) (hsuccess : s.lastUpdateSuccess = true)
    (hdisabled : .containers ∉ s.monitored → s.rows "app_stats" = [])
    (d : EntityDescription) (hd : d ∈ platformDescriptions) (href : d.dataReference.isSome = true) (reference : String)
    (hgone : s.Gone d reference) (T : Text) (identity entryId : String) (reg : Registry) (e : RegistryEntry)
    (he : e ∈ reg.entries)
    (hof : e.OfEntry entryId = true) (huid : e.uniqueId = T.prefixOf identity ++ d.id reference) :
    e ∉ (s.cleanupOrphanedEntities (T.prefixOf identity) entryId reg).entries ↔ s.Cleanable d reference := by
  have hremoved : e ∉ (s.cleanupOrphanedEntities (T.prefixOf identity) entryId reg).entries ↔
      orphaned (T.prefixOf identity) s.listing (T.prefixOf identity ++ d.id reference) = true := by
    simp [cleanupOrphanedEntities,Registry.removeWhere,he,hof,huid]
  rw [hremoved]
  exact ⟨cleanable_of_orphaned hdisabled hd href,fun h => orphaned_of_cleanable href hsuccess hgone h _⟩

def oneTask : Snapshot where
  monitored := [.snapshots]
  objects := [("snapshottask",[("2",⟨[("id","2")],[]⟩)])]

def taskSensor : RegistryEntry := ⟨⟨"sensor","task_1"⟩,domain,"guid-snapshottask-1",some "e1",none,none,none,none⟩
def taskButton : RegistryEntry :=
  ⟨⟨"button","task_1_run"⟩,domain,"guid-snapshottask_run-1",some "e1",none,none,none,none⟩
def taskRegistry : Registry := ⟨[taskSensor,taskButton],by decide,by decide⟩

theorem removed_iff_taskSensor : taskSensor ∉ (oneTask.cleanupOrphanedEntities "guid-" "e1" taskRegistry).entries ↔
    oneTask.Cleanable { key := "snapshottask", dataPath := "snapshottask", dataReference := some "id" } "1" :=
  removed_iff oneTask rfl (fun _ =>
    rfl) _ (by decide +kernel) rfl "1" (Or.inl ⟨by unfold Reports; decide,by decide⟩) ⟨id,id⟩ "guid" "e1"
    taskRegistry taskSensor (by decide) (by decide) (by decide)

/-- The button of the other task stays. -/
theorem not_removed_of_button : ¬ ∀ (s : Snapshot), s.lastUpdateSuccess = true →
    (.containers ∉ s.monitored → s.rows "app_stats" = []) →
    ∀ d ∈ platformDescriptions, d.dataReference.isSome = true → ∀ reference, s.Gone d reference →
      ∀ (T : Text) (identity entryId : String) (reg : Registry), ∀ e ∈ reg.entries, e.OfEntry entryId = true →
        e.uniqueId = T.prefixOf identity ++ d.id reference →
          e ∉ (s.cleanupOrphanedEntities (T.prefixOf identity) entryId reg).entries := by
  intro hall
  refine hall oneTask rfl (fun _ => rfl)
    { key := "snapshottask_run", dataPath := "snapshottask", dataReference := some "id" }
    (by decide +kernel) rfl "1" (Or.inl ⟨by unfold Reports; decide,by decide⟩) ⟨id,
      id⟩ "guid" "e1" taskRegistry taskButton (by decide)
    (by decide) (by decide) (by decide +kernel)

end Snapshot
end TruenasCE.Cleanup
