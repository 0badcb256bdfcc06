import TruenasCE.Cleanup.Discovery

/-! # What discovery creates is no orphan -/
namespace TruenasCE.Cleanup
open Library Migration Identity

theorem eq_of_dashed {k k' r : List Char} (hk : '-' ∉ k) (hk' : '-' ∉ k') (h : k ++ ['-'] <+: k' ++ '-' :: r) :
    k = k' := by
  induction k generalizing k' with
  | nil =>
    cases k' with
    | nil => rfl
    | cons c rest =>
      obtain ⟨hc,_⟩ := List.cons_prefix_cons.mp h
      simp [← hc] at hk'
  | cons c rest ih =>
    cases k' with
    | nil =>
      obtain ⟨hc,_⟩ := List.cons_prefix_cons.mp h
      simp [hc] at hk
    | cons c' rest' =>
      obtain ⟨rfl,hrest⟩ := List.cons_prefix_cons.mp h
      rw [ih (fun hmem => hk (List.mem_cons_of_mem _ hmem)) (fun hmem => hk' (List.mem_cons_of_mem _ hmem)) hrest]

theorem toList_id (d : EntityDescription) (reference : String) :
    (d.id reference).toList = d.key.toList ++ '-' :: reference.toList := by
  simp [EntityDescription.id,suffix]

theorem orphaned_iff (pre : String) (l : Listing) (id : String) : orphaned pre l (pre ++ id) = true ↔
    l.updated = true ∧ id ∉ l.active ∧ ∃ base ∈ l.liveBases, id = base ∨ base.toList ++ ['-'] <+: id.toList := by
  have hactive : pre ++ id ∈ l.active.map (fun a => pre ++ a) ↔ id ∈ l.active := by
    simp [List.mem_map,String.append_right_inj]
  have hbase : ∀ base : String, (pre ++ id = pre ++ base ∨ (pre ++ base ++ "-").toList <+: (pre ++ id).toList) ↔
      (id = base ∨ base.toList ++ ['-'] <+: id.toList) := by
    intro base
    simp [String.append_right_inj,List.prefix_append_right_inj]
  simp only [orphaned,Bool.and_eq_true,decide_eq_true_eq,List.any_eq_true,hactive,hbase,and_assoc]

theorem match_iff {d : EntityDescription} (hd : '-' ∉ d.key.toList) {base : String} (hbase : '-' ∉ base.toList)
    (reference : String) :
    (d.id reference = base ∨ base.toList ++ ['-'] <+: (d.id reference).toList) ↔ base = d.key := by
  rw [toList_id]
  constructor
  · rintro (rfl | h)
    · simp [toList_id] at hbase
    · exact String.toList_injective (eq_of_dashed hbase hd h)
  · rintro rfl
    exact Or.inr ((List.prefix_append_right_inj _).mpr ⟨reference.toList,rfl⟩)

namespace Snapshot
variable {s : Snapshot}

theorem owner_of_disabled {path : String} (h : path ∈ s.disabledDataPaths) :
    owner path ≠ none ∧ path ≠ "app_stats" := by
  obtain ⟨g,hg,rfl⟩ := List.mem_map.mp h
  have hall : ∀ g ∈ groupDataPaths, owner g.2 ≠ none ∧ g.2 ≠ "app_stats" := by decide
  exact hall g (List.mem_filter.mp hg).1

/-- When the key of a description is a live base. -/
def Live (s : Snapshot) (d : EntityDescription) : Prop :=
  d.dataPath ∈ s.disabledDataPaths ∨ d.dataReference.isSome = true ∧
    (s.rows d.dataPath ≠ [] ∨ d.func = .appStatsSensor ∧ d.dataCompositeReferences = [] ∧ s.knownAppNames ≠ [])

theorem mem_static_live {d : EntityDescription} {base : String} : base ∈ (s.processStaticDescription d).2 ↔
    base = d.key ∧ (d.dataPath ∈ s.disabledDataPaths ∨ d.dataReference.isSome = true ∧ s.rows d.dataPath ≠ []) := by
  unfold processStaticDescription
  cases d.dataReference with
  | none => by_cases hdisabled : d.dataPath ∈ s.disabledDataPaths <;> simp [hdisabled]
  | some field =>
    by_cases hdisabled : d.dataPath ∈ s.disabledDataPaths <;> by_cases hrows : s.rows d.dataPath = [] <;>
      simp [hdisabled,hrows]

theorem mem_dynamic_live {d : EntityDescription} {base : String} (href : d.dataReference.isSome = true) :
    base ∈ (s.processDynamicDescription d).2 ↔ base = d.key ∧ d.dataDynamicKeys = true ∧
      (d.dataPath ∈ s.disabledDataPaths ∨
        if d.func = .appStatsSensor ∧ d.dataCompositeReferences = [] then s.knownAppNames ≠ []
        else s.rows d.dataPath ≠ []) := by
  unfold processDynamicDescription
  rw [Option.isNone_eq_false_iff.mpr href]
  by_cases hdyn : d.dataDynamicKeys = true
  · by_cases hdisabled : d.dataPath ∈ s.disabledDataPaths
    · simp [hdyn,hdisabled]
    · by_cases hstd : d.func = .appStatsSensor ∧ d.dataCompositeReferences = []
      · by_cases hknown : s.knownAppNames = [] <;> simp [hdyn,hdisabled,hstd,hknown]
      · by_cases hrows : s.rows d.dataPath = []
        · simp [hdyn,hdisabled,hstd,hrows]
        · by_cases hcomp : d.dataCompositeReferences = []
          · simp [hdyn,hdisabled,hrows,hcomp] at hstd ⊢
            simp [hstd]
          · simp [hdyn,hdisabled,hrows,hcomp]
  · simp [hdyn]

theorem mem_liveBases {base : String} : base ∈ s.listing.liveBases ↔ ∃ d ∈ allDescriptions, base = d.key ∧
    s.Live d := by
  unfold listing
  rw [List.mem_flatMap]
  refine exists_congr (fun d => and_congr_right (fun hd => ?_))
  obtain ⟨hdyn,_,href⟩ := appStats_iff d (List.mem_append_left _ hd)
  rw [List.mem_append,mem_static_live,Live]
  by_cases happ : d.func = .appStatsSensor
  · rw [mem_dynamic_live (href happ).1]
    by_cases hcomp : d.dataCompositeReferences = []
    · simp [happ,hcomp,hdyn.mp happ,(href happ).1]
      tauto
    · simp [happ,hcomp,hdyn.mp happ,(href happ).1]
  · have hnot : d.dataDynamicKeys = false := by simpa using fun h => happ (hdyn.mpr h)
    have hempty : (s.processDynamicDescription d).2 = [] := by simp [processDynamicDescription,hnot]
    simp [hempty,happ]

theorem dash_notMem_liveBase {base : String} (h : base ∈ s.listing.liveBases) : '-' ∉ base.toList := by
  obtain ⟨d,hd,rfl,hlive⟩ := mem_liveBases.mp h
  refine dash_notMem_key d (List.mem_append_left _ hd) ?_
  rcases hlive with hdisabled | ⟨href,_⟩
  · exact Or.inr (owner_of_disabled hdisabled).1
  · exact Or.inl href

theorem mem_active {id : String} : id ∈ s.listing.active ↔
    ∃ d ∈ allDescriptions, id ∈ (s.processStaticDescription d).1 ∨ id ∈ (s.processDynamicDescription d).1 := by
  simp [listing]

/-- A state of the coordinator under its options: disabled groups hold no data, and each object has
an id. -/
structure Consistent (s : Snapshot) : Prop where
  disabled : ∀ path ∈ s.disabledDataPaths, s.rows path = [] ∧ (s.attributes.lookup path).getD [] = []
  uids : ∀ domain ∈ s.objects, ∀ row ∈ domain.2, row.1 ≠ ""

theorem Consistent.uid (hs : s.Consistent) {path : String} {row : String × Vals} (h : row ∈ s.rows path) :
    row.1 ≠ "" := by
  unfold rows at h
  cases hlookup : s.objects.lookup path with
  | none => simp [hlookup] at h
  | some found =>
    obtain ⟨before,after,heq,_⟩ := List.lookup_eq_some_iff.mp hlookup
    rw [hlookup] at h
    exact hs.uids (path,found) (by simp [heq]) row h

theorem keyless_of_disabled : ∀ d ∈ platformDescriptions, d.dataReference = none → owner d.dataPath ≠ none →
    d.valueFn = false ∧ d.dataAttribute.isSome = true := by decide +kernel

theorem networks_of_composite : ∀ d ∈ allDescriptions, d.dataCompositeReferences ≠ [] →
    d.dataCompositeReferences = ["networks","interface_name"] ∧ d.dataExclude = none := by decide +kernel

/-- The entities of objects and the keyless ones; those of the buttons have no live base. -/
theorem active_of_collected (hs : s.Consistent) {d : EntityDescription} (hd : d ∈ platformDescriptions) {id : String}
    (h : id ∈ s.collectNewEntities d) : id ∈ (s.processStaticDescription d).1 := by
  unfold collectNewEntities at h
  split at h
  · cases h
  split at h
  · rename_i href
    split at h
    · cases h
    · rename_i found hlookup
      have hrows : s.rows d.dataPath = found := by rw [Snapshot.rows,hlookup,Option.getD_some]
      obtain ⟨row,hrow,rfl⟩ := List.mem_map.mp h
      have hmem := (List.mem_filter.mp hrow).1
      have hne : s.rows d.dataPath ≠ [] := hrows ▸ List.ne_nil_of_mem hmem
      have henabled : d.dataPath ∉ s.disabledDataPaths := fun hdisabled => hne (hs.disabled _ hdisabled).1
      have huid : row.1 ≠ "" := hs.uid (hrows.symm ▸ hmem)
      rw [processStaticDescription,if_neg (by simp [Option.isNone_eq_false_iff.mpr href]),
        if_neg (fun h => hne h.1),if_neg henabled,entityId,if_neg huid,
        referencedUniqueIds,hrows]
      exact List.mem_map.mpr ⟨row,hrow,rfl⟩
  · rename_i href
    split at h
    · cases h
    · rename_i values hlookup
      split at h
      · cases h
      · rename_i hskip
        obtain rfl := List.mem_singleton.mp h
        have hnone : d.dataReference = none := by simpa using href
        have henabled : d.dataPath ∉ s.disabledDataPaths := by
          intro hdisabled
          obtain ⟨hvalue,hattr⟩ := keyless_of_disabled d hd hnone (owner_of_disabled hdisabled).1
          obtain ⟨name,hname⟩ := Option.isSome_iff_exists.mp hattr
          have hempty := (hs.disabled _ hdisabled).2
          rw [hlookup,Option.getD_some] at hempty
          simp [skipKeylessDescription,hvalue,hname,hempty] at hskip
        rw [processStaticDescription,if_pos (by simp [hnone]),if_neg henabled]
        exact List.mem_singleton_self _

theorem mem_compositeReferences {d : EntityDescription} (hd : d ∈ allDescriptions)
    (hcomp : d.dataCompositeReferences ≠ [])
    {rows : Rows} {id : String} : id ∈ s.compositeReferences d rows ↔
      ∃ row ∈ rows, ∃ net ∈ (row.2.containers.lookup "networks").getD [],
      ∃ name, net.bind (fun fields => fields.lookup "interface_name") = some name ∧
        d.id (row.1 ++ "::" ++ name) = id := by
  obtain ⟨hnetworks,hexclude⟩ := networks_of_composite d hd hcomp
  have hkept : ∀ fields, s.excluded d fields = false := fun fields => by simp [excluded,hexclude]
  have hfilter : ∀ net : Option Fields, net.filter (fun fields => !s.excluded d fields) = net :=
    fun net => by cases net <;> simp [hkept]
  rw [compositeReferences,hnetworks]
  simp only [hfilter,List.mem_flatMap,List.mem_filterMap,Option.map_eq_some_iff]

theorem active_of_discoverAppStats {d : EntityDescription} (hd : d ∈ allDescriptions) {id : String}
    (h : id ∈ s.discoverAppStats d) :
    id ∈ (s.processDynamicDescription d).1 := by
  unfold discoverAppStats at h
  split at h
  · cases h
  rename_i happ
  rw [not_not] at happ
  obtain ⟨hdyn,hpath,href⟩ := appStats_iff d (List.mem_append_left _ hd)
  have henabled : d.dataPath ∉ s.disabledDataPaths := fun hdisabled => (owner_of_disabled hdisabled).2 (hpath.mp happ)
  rw [processDynamicDescription,if_neg (by simp [hdyn.mp happ]),if_neg henabled]
  split at h
  · rename_i hcomp
    obtain ⟨row,hrow,h⟩ := List.mem_flatMap.mp h
    obtain ⟨net,hnet,h⟩ := List.mem_filterMap.mp h
    obtain ⟨name,hname,rfl⟩ := Option.map_eq_some_iff.mp h
    have hmem : row ∈ s.rows d.dataPath := hpath.mp happ ▸ (List.mem_filter.mp hrow).1
    rw [if_neg (fun h => hcomp h.2),if_neg (by simp [Option.isNone_eq_false_iff.mpr (href happ).1]),
      if_neg (List.ne_nil_of_mem hmem),
      if_pos hcomp]
    exact (mem_compositeReferences hd hcomp).mpr ⟨row,hmem,net,hnet,name,(Option.filter_eq_some_iff.mp hname).1,rfl⟩
  · rename_i hcomp
    rw [not_not] at hcomp
    rw [if_pos ⟨happ,hcomp⟩]
    obtain ⟨name,hname,rfl⟩ := List.mem_map.mp h
    rw [if_neg (List.ne_nil_of_mem hname)]
    exact List.mem_map_of_mem hname

theorem exists_reference {d : EntityDescription} (href : d.dataReference.isSome = true) {id : String}
    (h : id ∈ (s.processStaticDescription d).1) : ∃ reference, id = d.id reference := by
  unfold processStaticDescription at h
  rw [if_neg (by simp [Option.isNone_eq_false_iff.mpr href])] at h
  split at h
  · cases h
  · split at h
    · cases h
    · obtain ⟨row,_,rfl⟩ := List.mem_map.mp h
      exact ⟨_,rfl⟩

theorem orphaned_id_iff {d : EntityDescription} (hd : d ∈ platformDescriptions) (href : d.dataReference.isSome = true)
    (pre reference : String) : orphaned pre s.listing (pre ++ d.id reference) = true ↔
      s.lastUpdateSuccess = true ∧ d.id reference ∉ s.listing.active ∧ d.key ∈ s.listing.liveBases := by
  rw [orphaned_iff]
  refine and_congr_right (fun _ => and_congr_right (fun _ => ⟨?_,fun h => ⟨d.key,h,?_⟩⟩))
  · rintro ⟨base,hbase,hmatch⟩
    rwa [(match_iff (dash_notMem_key d hd (Or.inl href)) (dash_notMem_liveBase hbase) reference).mp hmatch] at hbase
  · exact (match_iff (dash_notMem_key d hd (Or.inl href)) (dash_notMem_key d hd (Or.inl href)) reference).mpr rfl

theorem not_orphaned_of_discovered (hs : s.Consistent) (pre : String) {id : String} (h : id ∈ s.discovered) :
    orphaned pre s.listing (pre ++ id) = false := by
  obtain ⟨d,hd,hid⟩ := List.mem_flatMap.mp h
  rcases List.mem_append.mp hd with hall | hbutton
  · have hactive : id ∈ s.listing.active := by
      refine mem_active.mpr ⟨d,hall,?_⟩
      rcases List.mem_append.mp hid with hid | hid
      · exact Or.inl (active_of_collected hs hd hid)
      · exact Or.inr (active_of_discoverAppStats hall hid)
    rw [Bool.eq_false_iff]
    exact fun horphan => ((orphaned_iff pre _ _).mp horphan).2.1 hactive
  · obtain ⟨href,happ⟩ := reference_of_button d hbutton
    have hcollected : id ∈ s.collectNewEntities d := by
      rcases List.mem_append.mp hid with hid | hid
      · exact hid
      · rw [discoverAppStats,if_pos (by simp [happ])] at hid
        cases hid
    obtain ⟨reference,rfl⟩ := exists_reference href (active_of_collected hs hd hcollected)
    rw [Bool.eq_false_iff]
    intro horphan
    obtain ⟨d',hd',hkey,_⟩ := mem_liveBases.mp ((orphaned_id_iff hd href pre reference).mp horphan).2.2
    exact key_of_button d hbutton (List.mem_map.mpr ⟨d',hd',hkey.symm⟩)

/-- The cleanup removes no entity that discovery creates from the same state. -/
theorem kept_of_discovered (s : Snapshot) (hs : s.Consistent) (T : Text) (identity entryId : String) (reg : Registry)
    (e : RegistryEntry) (he : e ∈ reg.entries) (id : String) (hid : id ∈ s.discovered)
    (huid : e.uniqueId = T.prefixOf identity ++ id) :
    e ∈ (s.cleanupOrphanedEntities (T.prefixOf identity) entryId reg).entries := by
  refine List.mem_filter.mpr ⟨he,?_⟩
  simp [huid,not_orphaned_of_discovered hs _ hid]

def webStats : Snapshot where
  monitored := [.containers]
  objects := [("app",[("web",⟨[("id","web"),("name","web")],[]⟩)]),
    ("app_stats",[("web",⟨[("app_name","web")],[("networks",[some [("interface_name","eth0")]])]⟩)])]

def webRx : RegistryEntry :=
  ⟨⟨"sensor","web_rx"⟩,domain,"guid-app_stats_network_rx-web::eth0",some "e1",none,none,none,none⟩

def webRegistry : Registry := ⟨[webRx],by decide,by decide⟩

theorem kept_of_discovered_webRx : webRx ∈ (webStats.cleanupOrphanedEntities "guid-" "e1" webRegistry).entries :=
  kept_of_discovered webStats ⟨by decide,by decide⟩ ⟨id,id⟩ "guid" "e1" webRegistry webRx (by decide)
    "app_stats_network_rx-web::eth0" (by decide +kernel) (by decide)

end Snapshot
end TruenasCE.Cleanup
