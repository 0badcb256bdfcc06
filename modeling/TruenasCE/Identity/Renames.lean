import TruenasCE.Cleanup.Complete

/-! # What the renames do to references

The map of `_collect_unique_id_renames` for the descriptions of the integration, told by the
references that the objects of a snapshot have and had.
-/
namespace TruenasCE.Identity
open Library Migration Cleanup

/-- The reference of an object, and the one that an earlier release took. -/
abbrev Source := String × Option String

def sources (s : Snapshot) (d : EntityDescription) : List Source :=
  if d.dataCompositeReferences ≠ [] then s.interfaceReferences.map (fun r => (r,none))
  else if d.dataReference.isSome then (s.rows d.dataPath).map (fun row =>
    (row.2.reference d.dataReference row.1,d.dataLegacyReference.map (fun field => row.2.reference (some field) row.1)))
  else []

/-- The pairs that `_collect_unique_id_renames` resolves. -/
def renamePairs (T : Text) (identity : String) (s : Snapshot) : Pairs :=
  legacyFormatterPairs T identity (allDescriptions.map EntityDescription.toDescription) s.listing.data ++
    legacyReferencePairs T identity (allDescriptions.map EntityDescription.toDescription) s.listing.data

/-- `_collect_unique_id_renames` for `_ALL_DESCRIPTIONS` -/
def uniqueIdRenames (T : Text) (identity : String) (s : Snapshot) : String → Option String :=
  collectUniqueIdRenames T identity (allDescriptions.map EntityDescription.toDescription) s.listing.data

/-- The reference as one of the earlier formats has it for the object. -/
def Former (T : Text) (reference : String) (o : Source) : Prop :=
  T.slugify (T.lower o.1) = reference ∨ T.lower o.1 = reference ∨ o.2 = some reference

instance (T : Text) (reference : String) : DecidablePred (Former T reference) := fun _ =>
  inferInstanceAs (Decidable (_ ∨ _))

/-- An object with the reference `current` had the other one. -/
def Formerly (T : Text) (s : Snapshot) (d : EntityDescription) (reference current : String) : Prop :=
  ∃ o ∈ sources s d, o.1 = current ∧ Former T reference o

/-- The objects that had the reference all have one and the same other reference now. -/
def Superseded (T : Text) (s : Snapshot) (d : EntityDescription) (reference current : String) : Prop :=
  current ≠ reference ∧ ∀ c, Formerly T s d reference c ↔ c = current

section Pairs
variable {T : Text} {identity : String} {s : Snapshot} {d : EntityDescription} {reference : String}

theorem lookup_data (s : Snapshot) (path : String) :
    s.listing.data.lookup path = (s.objects.lookup path).map (fun rows =>
      rows.map (fun row => (row.1,some row.2))) := by
  rw [Snapshot.listing]
  induction s.objects with
  | nil => rfl
  | cons p rest ih =>
    rw [List.map_cons,List.lookup_cons,List.lookup_cons]
    cases path == p.1 with
    | true => rfl
    | false => exact ih

theorem legacy_referenced : ∀ d ∈ allDescriptions, d.dataLegacyReference.isSome = true →
    d.dataReference.isSome = true ∧ d.dataCompositeReferences = [] := by decide +kernel

theorem lookup_legacy : ∀ d ∈ allDescriptions,
    (allDescriptions.map (fun d =>
      (d.key,d.dataLegacyReference))).lookup d.key = some d.dataLegacyReference := by decide +kernel

theorem path_of_composite (hd : d ∈ allDescriptions) (hcomp : d.dataCompositeReferences ≠ []) :
    d.dataPath = "app_stats" := by
  have hplatform : d ∈ platformDescriptions := List.mem_append_left _ hd
  obtain ⟨hdyn,hpath,_⟩ := appStats_iff d hplatform
  exact hpath.mp (hdyn.mpr ((valid_platformDescriptions d hplatform).1 hcomp).1)

theorem compositeReferences_eq (hd : d ∈ allDescriptions) (hcomp : d.dataCompositeReferences ≠ []) :
    compositeReferences d.toDescription ((s.rows "app_stats").map (fun row =>
      (row.1,some row.2))) = s.interfaceReferences := by
  rw [compositeReferences,(Snapshot.networks_of_composite d hd hcomp).1,Snapshot.interfaceReferences]
  exact List.flatMap_map _ _ _

theorem formatterPairs_eq (legacy : Formatter) (hd : d ∈ allDescriptions) :
    (match s.listing.data.lookup d.dataPath with
      | none => []
      | some domainData =>
        if d.dataCompositeReferences ≠ [] then compositeIdPairs T identity legacy d.toDescription domainData
        else if d.dataReference.isSome then referencedIdPairs T identity legacy d.toDescription domainData
        else []) =
      (sources s d).map (fun o => (legacy identity d.key (some o.1),T.formatUniqueId identity d.key (some o.1))) := by
  rw [lookup_data]
  unfold sources
  by_cases hcomp : d.dataCompositeReferences = []
  · by_cases href : d.dataReference.isSome = true
    · cases hlookup : s.objects.lookup d.dataPath with
      | none => simp [hcomp,href,Snapshot.rows,hlookup]
      | some rows => simp [hcomp,href,Snapshot.rows,hlookup,referencedIdPairs,Function.comp_def]
    · cases hlookup : s.objects.lookup d.dataPath with
      | none => simp [hcomp,href]
      | some rows => simp [hcomp,href]
  · have hrefs := compositeReferences_eq (s := s) hd hcomp
    rw [← path_of_composite hd hcomp,Snapshot.rows] at hrefs
    cases hlookup : s.objects.lookup d.dataPath with
    | none =>
      rw [hlookup] at hrefs
      simp [← hrefs,compositeReferences,(Snapshot.networks_of_composite d hd hcomp).1]
    | some rows =>
      rw [hlookup] at hrefs
      simp only [Option.getD_some] at hrefs
      simp [hcomp,compositeIdPairs,hrefs,Function.comp_def]

theorem legacyPairs_eq (hd : d ∈ allDescriptions) :
    (match s.listing.data.lookup d.dataPath with
      | none => []
      | some domainData => legacyReferenceIdPairs T identity d.toDescription domainData) =
      (sources s d).filterMap (fun o => o.2.map (fun earlier =>
        (T.formatUniqueId identity d.key (some earlier),T.formatUniqueId identity d.key (some o.1)))) := by
  rw [lookup_data]
  cases hlegacy : d.dataLegacyReference with
  | none =>
    have hnone : (sources s d).filterMap (fun o => o.2.map (fun earlier =>
        (T.formatUniqueId identity d.key (some earlier),T.formatUniqueId identity d.key (some o.1)))) = [] := by
      unfold sources
      split_ifs <;> simp [hlegacy]
    rw [hnone]
    cases s.objects.lookup d.dataPath with
    | none => rfl
    | some rows => simp [legacyReferenceIdPairs,hlegacy]
  | some field =>
    obtain ⟨href,hcomp⟩ := legacy_referenced d hd (by simp [hlegacy])
    cases hlookup : s.objects.lookup d.dataPath with
    | none => simp [sources,hcomp,href,Snapshot.rows,hlookup]
    | some rows => simp [sources,hcomp,href,hlegacy,Snapshot.rows,hlookup,legacyReferenceIdPairs]

theorem mem_renamePairs {p : String × String} : p ∈ renamePairs T identity s ↔ ∃ d ∈ allDescriptions, ∃ o ∈ sources s d,
    (p.1 = T.legacyFormatUniqueId identity d.key (some o.1) ∨ p.1 = T.lowercasedUniqueId identity d.key (some o.1) ∨
      ∃ earlier, o.2 = some earlier ∧ p.1 = T.formatUniqueId identity d.key (some earlier)) ∧
    p.2 = T.formatUniqueId identity d.key (some o.1) := by
  have hformatter : ∀ legacy, ∀ d ∈ allDescriptions, _ := fun legacy d hd =>
    congrArg (fun l => p ∈ l) (@formatterPairs_eq T identity s d legacy hd)
  have hlegacy : ∀ d ∈ allDescriptions, _ := fun d hd =>
    congrArg (fun l => p ∈ l) (@legacyPairs_eq T identity s d hd)
  rw [renamePairs,List.mem_append,legacyFormatterPairs,legacyReferencePairs,legacyUniqueIdFormatters]
  simp only [List.flatMap_map,List.mem_flatMap,List.mem_cons,List.not_mem_nil,or_false]
  constructor
  · rintro (⟨legacy,hl,d,hd,hp⟩ | ⟨d,hd,hp⟩)
    · obtain ⟨o,ho,rfl⟩ := List.mem_map.mp ((hformatter legacy d hd).mp hp)
      rcases hl with rfl | rfl
      · exact ⟨d,hd,o,ho,Or.inl rfl,rfl⟩
      · exact ⟨d,hd,o,ho,Or.inr (Or.inl rfl),rfl⟩
    · obtain ⟨o,ho,hp⟩ := List.mem_filterMap.mp ((hlegacy d hd).mp hp)
      obtain ⟨earlier,hearlier,rfl⟩ := Option.map_eq_some_iff.mp hp
      exact ⟨d,hd,o,ho,Or.inr (Or.inr ⟨earlier,hearlier,rfl⟩),rfl⟩
  · rintro ⟨d,hd,o,ho,hold,hnew⟩
    rcases hold with hold | hold | ⟨earlier,hearlier,hold⟩
    · exact Or.inl ⟨_,Or.inl rfl,d,hd,(hformatter _ d hd).mpr (List.mem_map.mpr ⟨o,ho,Prod.ext hold.symm hnew.symm⟩)⟩
    · exact Or.inl ⟨_,Or.inr rfl,d,hd,(hformatter _ d hd).mpr (List.mem_map.mpr ⟨o,ho,Prod.ext hold.symm hnew.symm⟩)⟩
    · refine Or.inr ⟨d,hd,(hlegacy d hd).mpr (List.mem_filterMap.mpr ⟨o,ho,?_⟩)⟩
      rw [hearlier]
      exact congrArg some (Prod.ext hold.symm hnew.symm)

theorem reference_of_sources {o : Source} (hd : d ∈ allDescriptions) (ho : o ∈ sources s d) :
    d.dataReference.isSome = true := by
  unfold sources at ho
  split_ifs at ho with hcomp href
  · have hplatform : d ∈ platformDescriptions := List.mem_append_left _ hd
    obtain ⟨hdyn,_,happ⟩ := appStats_iff d hplatform
    exact (happ (hdyn.mpr ((valid_platformDescriptions d hplatform).1 hcomp).1)).1
  · exact href
  · cases ho

theorem sources_eq_of_key {d' : EntityDescription} (hd : d ∈ allDescriptions) (hd' : d' ∈ allDescriptions)
    (h : d.key = d'.key) :
    sources s d = sources s d' := by
  have hshape := shape_eq_of_key hd hd' h
  have hlegacy := lookup_legacy d hd
  rw [h,lookup_legacy d' hd'] at hlegacy
  simp only [EntityDescription.shape,Prod.mk.injEq] at hshape
  obtain ⟨hpath,href,hcomp,_⟩ := hshape
  rw [sources,sources,hpath,href,hcomp,Option.some.inj hlegacy]

/-- The earlier ids of a description stand for references that its objects had. -/
theorem mem_renamePairs_id (hd : d ∈ platformDescriptions) (href : d.dataReference.isSome = true) {new : String} :
    (T.prefixOf identity ++ d.id reference,new) ∈ renamePairs T identity s ↔
      d ∈ allDescriptions ∧ ∃ c, Formerly T s d reference c ∧ new = T.prefixOf identity ++ d.id c := by
  have hdash := dash_notMem_key d hd (Or.inl href)
  rw [mem_renamePairs]
  constructor
  · rintro ⟨d',hd',o,ho,hold,hnew⟩
    have hdash' := dash_notMem_key d' (List.mem_append_left _ hd') (Or.inl (reference_of_sources hd' ho))
    have hsame : ∀ r, T.prefixOf identity ++ d.id reference = T.prefixOf identity ++ d'.id r → d.key = d'.key ∧
      reference = r := by
      intro r hr
      exact id_inj hdash hdash' ((String.append_right_inj _).mp hr)
    have hkey : d.key = d'.key ∧ Former T reference o := by
      rcases hold with hold | hold | ⟨earlier,hearlier,hold⟩
      · obtain ⟨hkey,hr⟩ := hsame _ hold
        exact ⟨hkey,Or.inl hr.symm⟩
      · obtain ⟨hkey,hr⟩ := hsame _ hold
        exact ⟨hkey,Or.inr (Or.inl hr.symm)⟩
      · obtain ⟨hkey,hr⟩ := hsame _ hold
        exact ⟨hkey,Or.inr (Or.inr (hr ▸ hearlier))⟩
    obtain ⟨hkey,hformer⟩ := hkey
    have hall : d ∈ allDescriptions := by
      rcases List.mem_append.mp hd with hall | hbutton
      · exact hall
      · exact absurd (List.mem_map.mpr ⟨d',hd',hkey.symm⟩) (key_of_button d hbutton)
    refine ⟨hall,o.1,⟨o,?_,rfl,hformer⟩,?_⟩
    · rwa [sources_eq_of_key hall hd' hkey]
    · rw [EntityDescription.id,hkey]
      exact hnew
  · rintro ⟨hall,c,⟨o,ho,rfl,hformer⟩,rfl⟩
    refine ⟨d,hall,o,ho,?_,rfl⟩
    rcases hformer with rfl | rfl | hearlier
    · exact Or.inl rfl
    · exact Or.inr (Or.inl rfl)
    · exact Or.inr (Or.inr ⟨reference,hearlier,rfl⟩)

end Pairs

section Map
variable {T : Text} {identity : String} {s : Snapshot} {d : EntityDescription} {reference new : String}

theorem resolveRenames_eq_some_iff {pairs : Pairs} {old new : String} :
    resolveRenames pairs old = some new ↔ new ≠ old ∧ ∀ n, (old,n) ∈ pairs ↔ n = new := by
  have hmem : ∀ n, n ∈ ((pairs.filter (fun p => p.1 = old)).map Prod.snd).dedup ↔ (old,n) ∈ pairs := by
    intro n
    rw [List.mem_dedup,List.mem_map]
    constructor
    · rintro ⟨⟨_,_⟩,hp,rfl⟩
      obtain ⟨hp,hold⟩ := List.mem_filter.mp hp
      rwa [← of_decide_eq_true hold]
    · intro hp
      exact ⟨(old,n),List.mem_filter.mpr ⟨hp,by simp⟩,rfl⟩
  have hnodup := List.nodup_dedup ((pairs.filter (fun p => p.1 = old)).map Prod.snd)
  unfold resolveRenames
  constructor
  · intro h
    split at h
    · rename_i n hd
      split at h
      · cases h
      · rename_i hne
        obtain rfl := Option.some.inj h
        refine ⟨hne,fun n' => ?_⟩
        rw [← hmem,hd,List.mem_singleton]
    · cases h
  · rintro ⟨hne,hall⟩
    have hone : ((pairs.filter (fun p => p.1 = old)).map Prod.snd).dedup = [new] := by
      refine List.perm_singleton.mp ((List.perm_ext_iff_of_nodup hnodup (List.nodup_singleton new)).mpr (fun n => ?_))
      rw [hmem,hall,List.mem_singleton]
    rw [hone]
    exact if_neg hne

theorem uniqueIdRenames_eq_some_iff (hd : d ∈ platformDescriptions) (href : d.dataReference.isSome = true) :
    uniqueIdRenames T identity s (T.prefixOf identity ++ d.id reference) = some new ↔
      d ∈ allDescriptions ∧ ∃ c, Superseded T s d reference c ∧ new = T.prefixOf identity ++ d.id c := by
  have hdash := dash_notMem_key d hd (Or.inl href)
  have hinj : ∀ {r r' : String}, T.prefixOf identity ++ d.id r = T.prefixOf identity ++ d.id r' ↔ r = r' := by
    intro r r'
    exact ⟨fun h => (id_inj hdash hdash ((String.append_right_inj _).mp h)).2,fun h => h ▸ rfl⟩
  rw [uniqueIdRenames,collectUniqueIdRenames,resolveRenames_eq_some_iff]
  change _ ∧ (∀ n, _ ∈ renamePairs T identity s ↔ n = new) ↔ _
  simp only [mem_renamePairs_id hd href]
  constructor
  · rintro ⟨hne,hall⟩
    obtain ⟨hmem,c,hc,rfl⟩ := (hall new).mpr rfl
    refine ⟨hmem,c,⟨fun h => hne (h ▸ rfl),fun c' => ?_⟩,rfl⟩
    rw [← hinj,← hall]
    constructor
    · exact fun h => ⟨hmem,c',h,rfl⟩
    · rintro ⟨_,c'',h,heq⟩
      exact hinj.mp heq ▸ h
  · rintro ⟨hmem,c,⟨hne,hall⟩,rfl⟩
    refine ⟨fun h => hne (hinj.mp h),fun n => ?_⟩
    constructor
    · rintro ⟨_,c',h,rfl⟩
      exact hinj.mpr ((hall c').mp h)
    · rintro rfl
      exact ⟨hmem,c,(hall c).mpr rfl,rfl⟩

end Map
end TruenasCE.Identity
