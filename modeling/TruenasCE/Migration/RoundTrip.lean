import TruenasCE.Migration.Rollback

/-! # Adoption and rollback

The registry before the adoption against the registry after the rollback: every legacy
entity has its fields again exactly when no legacy id is the temporary id handed to a
later entity of the rollback.
-/
namespace TruenasCE.Migration
open Library

/-- Entries without the property are the same. -/
def Untouched (P : RegistryEntry → Prop) (reg r : Registry) : Prop := ∀ x, ¬ P x → (x ∈ r.entries ↔ x ∈ reg.entries)

def Within (P : RegistryEntry → Prop) (reg : Registry) (ms : List Move) : Prop :=
  ∀ m ∈ ms, ∀ e, reg.get m.current = some e → P e

section Frame
variable {P : RegistryEntry → Prop} {reg r s : Registry} {ms : List Move} {id : EntityId} {e : RegistryEntry}

theorem Untouched.refl (P : RegistryEntry → Prop) (reg : Registry) : Untouched P reg reg := fun _ _ => Iff.rfl

theorem Untouched.trans (h : Untouched P reg r) (h' : Untouched P r s) : Untouched P reg s :=
  fun x hx => (h' x hx).trans (h x hx)

theorem Untouched.get (h : Untouched P reg r) (he : r.get id = some e) : P e ∨ reg.get id = some e := by
  by_cases hP : P e
  · exact Or.inl hP
  · obtain ⟨hmem,hid⟩ := Registry.get_eq_some_iff.mp he
    exact Or.inr (Registry.get_eq_some_iff.mpr ⟨(h e hP).mp hmem,hid⟩)

theorem Within.mono (h : Within P reg ms) (hu : Untouched P reg r) : Within P r ms := by
  intro m hm e he
  rcases hu.get he with hP | he
  · exact hP
  · exact h m hm e he

theorem Untouched.of_find {k : Key} {x : RegistryEntry} (hPx : P x) (he : reg.find k = some e) (hP : P e)
    (hr : ∀ k', r.find k' = if k' = k then some x else reg.find k') : Untouched P reg r := by
  intro y hy
  have hmem : ∀ {t : Registry}, y ∈ t.entries ↔ t.find y.key = some y :=
    fun {t} => ⟨Registry.find_key,fun h => (Registry.find_eq_some_iff.mp h).1⟩
  rw [hmem,hmem,hr]
  split
  · rename_i hk
    rw [hk,he]
    refine ⟨fun h => absurd ?_ hy,fun h => absurd ?_ hy⟩
    · rw [← Option.some.inj h]
      exact hPx
    · rw [← Option.some.inj h]
      exact hP
  · rfl

end Frame

/-- A property the changes of an entry keep. -/
structure Kept (P : RegistryEntry → Prop) : Prop where
  entityId : ∀ e id, P e → P { e with entityId := id }
  apply : ∀ e u, P e → P (e.apply u)

section Pass
variable {P : RegistryEntry → Prop} {reg r : Registry} {ms : List Move} {m : Move} {id new : EntityId}

theorem rename_untouched (hK : Kept P) (h : reg.rename id new = some r) (hP : ∀ e, reg.get id = some e → P e) :
    Untouched P reg r := by
  obtain ⟨e,he,hd,hfind⟩ := Registry.find_rename h
  obtain ⟨hmem,heid⟩ := Registry.get_eq_some_iff.mp he
  exact Untouched.of_find (hK.entityId _ new (hP e he)) (Registry.find_key hmem) (hP e he) hfind

theorem restoreOverrides_untouched (hK : Kept P) (hP : ∀ e, reg.get id = some e → P e) (record : Record) :
    Post (Untouched P reg) (Untouched P reg) (restoreOverrides reg id record) := by
  unfold restoreOverrides
  split
  · exact Untouched.refl P reg
  cases hr : reg.update id record.updates with
  | none => exact Untouched.refl P reg
  | some r =>
    obtain ⟨e,he,hfind⟩ := Registry.find_update hr
    exact Untouched.of_find (hK.apply _ _ (hP e he)) (Registry.find_key (Registry.get_eq_some_iff.mp he).1)
      (hP e he) hfind

theorem settleOne_untouched (hK : Kept P) (hP : ∀ e, reg.get m.current = some e → P e) :
    Post (Untouched P reg) (fun p => Untouched P reg p.1) (settleOne reg m) := by
  unfold settleOne
  split
  · apply Post.map
    exact restoreOverrides_untouched hK hP m.record
  split
  · rename_i hnone
    split
    · exact Untouched.refl P reg
    · rename_i r hr
      have hu : Untouched P reg r := rename_untouched hK hr hP
      have hP' : ∀ e, r.get m.target = some e → P e := by
        intro e he
        rcases hu.get he with hPe | he
        · exact hPe
        · simp [he] at hnone
      apply Post.map
      exact (restoreOverrides_untouched hK hP' m.record).imp (fun _ h => hu.trans h) (fun _ h => hu.trans h)
  · apply Post.map
    exact restoreOverrides_untouched hK hP m.record

theorem settle_untouched (hK : Kept P) (hw : Within P reg ms) :
    Post (Untouched P reg) (fun p => Untouched P reg p.1) (settle reg ms) := by
  induction ms generalizing reg with
  | nil => exact Untouched.refl P reg
  | cons m rest ih =>
    have hone := settleOne_untouched hK (hw m (by simp))
    unfold settle
    split
    · rename_i r hr
      rw [hr] at hone
      exact hone
    · rename_i r outcome hr
      rw [hr] at hone
      have hw' : Within P r rest := Within.mono (fun b hb => hw b (by simp [hb])) hone
      apply Post.map
      exact (ih hw').imp (fun _ h => hone.trans h) (fun _ h => hone.trans h)

theorem park_untouched (hK : Kept P) (counter : ℕ) (hw : Within P reg ms) :
    Post (Untouched P reg) (fun p => Untouched P reg p.1 ∧ Within P p.1 p.2) (park reg counter ms) := by
  induction ms generalizing reg counter with
  | nil => exact ⟨Untouched.refl P reg,by simp [Within]⟩
  | cons m rest ih =>
    have hm := hw m (by simp)
    have hrest : Within P reg rest := fun b hb => hw b (by simp [hb])
    unfold park
    split
    · refine Post.map ((ih counter hrest).imp (fun _ h => h) (fun p h => ⟨h.1,?_⟩))
      intro b hb e he
      rcases List.mem_cons.mp hb with rfl | hb
      · rcases h.1.get he with hPe | he
        · exact hPe
        · exact hm e he
      · exact h.2 b hb e he
    split
    · exact Untouched.refl P reg
    · rename_i r hr
      have hu : Untouched P reg r := rename_untouched hK hr hm
      refine Post.map ((ih _ (hrest.mono hu)).imp (fun _ h => hu.trans h) (fun p h => ⟨hu.trans h.1,?_⟩))
      intro b hb e he
      rcases List.mem_cons.mp hb with rfl | hb
      · rcases (hu.trans h.1).get he with hPe | he
        · exact hPe
        · -- the temporary id was free before
          obtain ⟨n,ht,_,hfree,_⟩ := tempEntityId_spec reg m.current counter
          rw [ht] at he
          simp [hfree] at he
      · exact h.2 b hb e he

theorem remapAndRestore_untouched (hK : Kept P) (hw : Within P reg ms) :
    Untouched P reg (leaves (remapAndRestore reg ms)) := by
  have hp := park_untouched hK 0 hw
  unfold remapAndRestore
  split
  · rename_i r hr
    rw [hr] at hp
    exact hp
  · rename_i r parked hr
    rw [hr] at hp
    have hs := settle_untouched hK hp.2
    cases he : settle r parked with
    | error s =>
      rw [he] at hs
      exact hp.1.trans hs
    | ok p =>
      rw [he] at hs
      exact hp.1.trans hs

end Pass
/-- The platforms have registered the target entities of all records; entities of other config
entries are as they were. -/
structure PlatformsSetUp (c : Setup) (records : List Record) (before after : Registry) : Prop where
  others : ∀ e, e.OfEntry c.entryId = false → (e ∈ after.entries ↔ e ∈ before.entries)
  targets : ∀ r ∈ records, ∃ e ∈ after.entries, e.key = r.targetKey ∧ e.OfEntry c.entryId = true

/-- Without overrides, and not under a temporary id. -/
structure Fresh (e : RegistryEntry) : Prop where
  name : e.name = none
  icon : e.icon = none
  areaId : e.areaId = none
  disabledBy : e.disabledBy ≠ some .user
  entityId : ¬ e.entityId.Temporary

/-- Home Assistant has re-created exactly the legacy entities of the records. -/
structure Recreated (records : List Record) (before after : Registry) : Prop where
  kept : ∀ e ∈ before.entries, e ∈ after.entries
  only : ∀ e ∈ after.entries, e ∈ before.entries ∨ ∃ r ∈ records, e.key = r.legacyKey
  legacy : ∀ r ∈ records, ∃ e ∈ after.entries, e.key = r.legacyKey ∧ Fresh e

/-- Every entity of the legacy entry has the fields it had. -/
def SameLegacy (legacyEntryId : String) (before after : Registry) : Prop :=
  ∀ e ∈ before.entries, e.OfEntry legacyEntryId = true → ∃ e' ∈ after.entries, e'.key = e.key ∧
    e'.entityId = e.entityId ∧
    e'.name = e.name ∧ e'.icon = e.icon ∧ e'.areaId = e.areaId ∧ (e'.disabledBy = some .user ↔
      e.disabledBy = some .user)

/-- The registry between the removal of this entry and the return of the legacy entities. -/
def withoutEntry (c : Setup) (records : List Record) (reg : Registry) : Registry :=
  (leaves (finalizeLegacyAdoption reg records)).removeWhere (RegistryEntry.OfEntry c.entryId)

section RoundTrip
variable {c : Setup} {records : List Record} {pre reg : Registry} {r : Record}

theorem ofEntry_kept (entryId : String) : Kept (fun e => e.OfEntry entryId = true) := ⟨fun _ _ h => h,fun _ _ h => h⟩

theorem finalize_untouched {before : Registry} (h : PlatformsSetUp c records before reg) :
    Untouched (fun e => e.OfEntry c.entryId = true) reg (leaves (finalizeLegacyAdoption reg records)) := by
  refine remapAndRestore_untouched (ofEntry_kept c.entryId) (fun m hm e he => ?_)
  obtain ⟨hr,hcur,_⟩ := mem_pairsOf.mp hm
  obtain ⟨x,hx,hkey⟩ := Registry.get_of_getEntityId hcur
  obtain rfl : x = e := Option.some.inj (hx.symm.trans he)
  obtain ⟨y,hy,hykey,hof⟩ := h.targets m.record hr
  have hfind : reg.find m.record.targetKey = some x :=
    Registry.find_eq_some_iff.mpr ⟨(Registry.get_eq_some_iff.mp he).1,hkey⟩
  obtain rfl : x = y := Option.some.inj (hfind.symm.trans (Registry.find_eq_some_iff.mpr ⟨hy,hykey⟩))
  exact hof

theorem not_held_withoutEntry (h : PlatformsSetUp c (c.records pre) (c.adopt pre) reg) (hr : r ∈ c.records pre) :
    ∀ e ∈ (withoutEntry c (c.records pre) reg).entries, e.entityId ≠ r.entityId := by
  intro e he hid
  obtain ⟨hmem,hof⟩ := List.mem_filter.mp he
  have hof' : e.OfEntry c.entryId = false := by simpa using hof
  have hreg : e ∈ reg.entries := (finalize_untouched h e (by simp [hof'])).mp hmem
  have hadopted : e ∈ (c.adopt pre).entries := (h.others e hof').mp hreg
  have hfree := (List.mem_filter.mp hadopted).2
  simp only [Bool.not_eq_true',decide_eq_false_iff_not] at hfree
  exact hfree (List.mem_map.mpr ⟨r,hr,hid.symm⟩)

variable {ha : Surroundings}

theorem recreated_pairs {before : Registry} (h : Recreated records before ha.registry) (hr : r ∈ records) :
    ∃ m ∈ pairsOf ha.registry Record.legacyKey records, m.record = r ∧ m.target = r.entityId ∧ ¬ m.current.Temporary ∧
      ∃ e, ha.registry.find r.legacyKey = some e ∧ Fresh e := by
  obtain ⟨e,he,hkey,hfresh⟩ := h.legacy r hr
  have hfind : ha.registry.find r.legacyKey = some e := Registry.find_eq_some_iff.mpr ⟨he,hkey⟩
  refine ⟨⟨e.entityId,r.entityId,r⟩,mem_pairsOf.mpr ⟨hr,Registry.getEntityId_of_find hfind,rfl⟩,rfl,rfl,
    hfresh.entityId,e,hfind,hfresh⟩

theorem rollback_settles_iff {entry : EntryData} (hplat : LegacyPlatform c.legacyEntryId pre)
    (he : entry.records = c.records pre)
    (hset : PlatformsSetUp c (c.records pre) (c.adopt pre) reg)
    (hrec : Recreated (c.records pre) (withoutEntry c (c.records pre) reg) ha.registry) {mid r : Registry}
    {parked : List Move} {outcomes : List Outcome}
    (hpark : park ha.registry 0 (pairsOf ha.registry Record.legacyKey entry.records) = .ok (mid,parked))
    (hp : Parked ha.registry mid Record.legacyKey (pairsOf ha.registry Record.legacyKey entry.records) parked)
    (hs : Settled mid r Record.legacyKey parked outcomes) :
    (∀ x ∈ c.records pre, r.getEntityId x.legacyKey = some x.entityId) ↔
      InTurn ha.registry (pairsOf ha.registry Record.legacyKey (c.records pre)) := by
  rw [he] at hpark hp
  have hrm := remappable_legacy ha.registry (c.records_distinct hplat)
  have hcur : ∀ m ∈ pairsOf ha.registry Record.legacyKey (c.records pre), ¬ m.current.Temporary := by
    intro m hm
    obtain ⟨hmr,hmc,_⟩ := mem_pairsOf.mp hm
    obtain ⟨m',hm',hr',_,hnt,_⟩ := recreated_pairs hrec hmr
    have hmc' := (mem_pairsOf.mp hm').2.1
    rw [hr',hmc] at hmc'
    rwa [Option.some.inj hmc']
  have hfree : ∀ m ∈ pairsOf ha.registry Record.legacyKey (c.records pre),
      ¬ Placement.HeldOutside ha.registry.getEntityId ((pairsOf ha.registry Record.legacyKey (c.records pre)).map
        (moveOf Record.legacyKey)) m.target := by
    rintro m hm ⟨k,hk,hat⟩
    obtain ⟨hmr,_,hmt⟩ := mem_pairsOf.mp hm
    obtain ⟨e,hmem,rfl,hid⟩ := Registry.getEntityId_eq_some_iff.mp hat
    rcases hrec.only e hmem with hold | ⟨x,hx,hkey⟩
    · exact not_held_withoutEntry hset hmr e hold (hid.trans hmt)
    · obtain ⟨m',hm',hr',_⟩ := recreated_pairs hrec hx
      refine hk (List.mem_map.mpr ⟨moveOf Record.legacyKey m',List.mem_map_of_mem hm',?_⟩)
      rw [moveOf,hr',hkey]
  have hall : (∀ x ∈ c.records pre, r.getEntityId x.legacyKey = some x.entityId) ↔
      ∀ m ∈ pairsOf ha.registry Record.legacyKey (c.records pre), r.getEntityId m.record.legacyKey = some m.target := by
    constructor
    · intro h m hm
      obtain ⟨hmr,_,hmt⟩ := mem_pairsOf.mp hm
      rw [hmt]
      exact h m.record hmr
    · intro h x hx
      obtain ⟨m,hm,hmr,hmt,_⟩ := recreated_pairs hrec hx
      have := h m hm
      rwa [hmr,hmt] at this
  rw [hall,settled_iff hrm hp hs,inTurn_iff hrm hcur hpark hp]
  exact and_iff_right hfree

theorem recordFor_mem (hplat : LegacyPlatform c.legacyEntryId pre) {e : RegistryEntry} (he : e ∈ pre.entries)
    (hof : e.OfEntry c.legacyEntryId = true) : c.recordFor e ∈ c.records pre ∧ (c.recordFor e).legacyKey = e.key :=
  ⟨Setup.mem_records.mpr ⟨e,he,hof,rfl⟩,legacyKey_recordFor (hplat e he hof)⟩

theorem fields_of_settled {mid r : Registry} {parked : List Move} {outcomes : List Outcome}
    (hrec : Recreated (c.records pre) (withoutEntry c (c.records pre) reg) ha.registry)
    (hp : Parked ha.registry mid Record.legacyKey (pairsOf ha.registry Record.legacyKey (c.records pre)) parked)
    (hs : Settled mid r Record.legacyKey parked outcomes) {e x : RegistryEntry} (hx : c.recordFor e ∈ c.records pre)
    (hfind : r.find (c.recordFor e).legacyKey = some x) :
    x.name = e.name ∧ x.icon = e.icon ∧ x.areaId = e.areaId ∧ (x.disabledBy = some .user ↔
      e.disabledBy = some .user) := by
  obtain ⟨m,hm,hmr,_,_,y,hy,hfresh⟩ := recreated_pairs hrec hx
  obtain ⟨p,hpm,_,hpr⟩ := hp.mem_iff.mpr ⟨m,hm,rfl,rfl⟩
  have hbody := hs.overrides p hpm
  rw [hpr,hmr,hp.body] at hbody
  simp only [Registry.body,hy,hfind,Option.map_some,Option.some.injEq] at hbody
  have hname : x.name = e.name.or y.name := congrArg RegistryEntry.name hbody
  have hicon : x.icon = e.icon.or y.icon := congrArg RegistryEntry.icon hbody
  have harea : x.areaId = e.areaId.or y.areaId := congrArg RegistryEntry.areaId hbody
  have hdis : x.disabledBy = (c.recordFor e).updates.disabledBy.or y.disabledBy :=
    congrArg RegistryEntry.disabledBy hbody
  refine ⟨?_,?_,?_,?_⟩
  · rw [hname,hfresh.name,Option.or_none]
  · rw [hicon,hfresh.icon,Option.or_none]
  · rw [harea,hfresh.areaId,Option.or_none]
  · rw [hdis]
    by_cases hu : e.disabledBy = some .user <;>
      simp [Record.updates,Setup.recordFor,recordOf,hu,hfresh.disabledBy]

/-- Adoption, finalizing and rollback give every legacy entity its fields back exactly when no
legacy id is the temporary id handed to a later entity of the rollback. -/
theorem sameLegacy_iff (c : Setup) (pre reg : Registry) (ha : Surroundings) (hplat : LegacyPlatform c.legacyEntryId pre)
    (hset : PlatformsSetUp c (c.records pre) (c.adopt pre) reg)
    (hrec : Recreated (c.records pre) (withoutEntry c (c.records pre) reg) ha.registry)
    (hreach : Reaches ⟨c.entryId,some c.legacyEntryId,c.records pre,c.records_distinct hplat⟩ ha) :
    SameLegacy c.legacyEntryId pre
        (asyncRollbackToLegacy ⟨c.entryId,some c.legacyEntryId,c.records pre,c.records_distinct hplat⟩ ha).registry ↔
      InTurn ha.registry (pairsOf ha.registry Record.legacyKey (c.records pre)) := by
  obtain ⟨mid,r,parked,outcomes,hrun,hpark,hp,hs⟩ := rollback_of_reaches hreach
  rw [hrun,← rollback_settles_iff hplat rfl hset hrec hpark hp hs]
  constructor
  · intro h x hx
    obtain ⟨e,he,hof,rfl⟩ := Setup.mem_records.mp hx
    obtain ⟨e',he',hkey,hid,_⟩ := h e he hof
    exact Registry.getEntityId_eq_some_iff.mpr ⟨e',he',hkey.trans (recordFor_mem hplat he hof).2.symm,hid⟩
  · intro h e he hof
    obtain ⟨hx,hkey⟩ := recordFor_mem hplat he hof
    obtain ⟨e',he',hk',hid⟩ := Registry.getEntityId_eq_some_iff.mp (h _ hx)
    have hfind : r.find (c.recordFor e).legacyKey = some e' := Registry.find_eq_some_iff.mpr ⟨he',hk'⟩
    exact ⟨e',he',hk'.trans hkey,hid,fields_of_settled hrec hp hs hx hfind⟩

end RoundTrip

/-- The migration of the entry `ce` from the legacy entry `old` named `nas`. -/
def nasSetup : Setup := ⟨id,"ce","id","old","nas",fun _ => none⟩

def legacyEntity (object uniqueId : String) (name : Option String) : RegistryEntry where
  entityId := ⟨"sensor",object⟩
  platform := legacyDomain
  uniqueId := uniqueId
  configEntryId := some "old"
  name := name

def newEntity (object uniqueId : String) : RegistryEntry where
  entityId := ⟨"sensor",object⟩
  platform := domain
  uniqueId := uniqueId
  configEntryId := some "ce"

/-- A run of the rollback that meets the legacy entities `reg`. -/
def reenabled (reg : Registry) : Surroundings := ⟨true,true,false,some true,reg,[],true,fun _ => true⟩

theorem not_temporary {id : EntityId} (h : ¬ tempObjectPrefix.toList <+: id.object.toList) : ¬ id.Temporary := by
  rintro ⟨n,hn⟩
  refine h ?_
  rw [hn]
  simp [tempId]

def cpuBefore : Registry := ⟨[legacyEntity "nas_cpu" "nas-cpu" (some "CPU")],by decide,by decide⟩
def cpuAdopted : Registry := ⟨[newEntity "truenas_cpu" "id-cpu"],by decide,by decide⟩
def cpuRecreated : Registry := ⟨[legacyEntity "nas_cpu_2" "nas-cpu" none],by decide,by decide⟩

theorem cpu_platform : LegacyPlatform "old" cpuBefore := by
  simp [LegacyPlatform,cpuBefore,legacyEntity]

/-- A custom name and the id come back. -/
theorem sameLegacy_iff_cpu : SameLegacy "old" cpuBefore
    (asyncRollbackToLegacy ⟨"ce",some "old",nasSetup.records cpuBefore,nasSetup.records_distinct cpu_platform⟩
      (reenabled cpuRecreated)).registry := by
  have hrecords : nasSetup.records cpuBefore = [nasSetup.recordFor (legacyEntity "nas_cpu" "nas-cpu" (some "CPU"))] := by
    decide
  have hadopt : (nasSetup.adopt cpuBefore).entries = [] := by decide
  have hgone : (withoutEntry nasSetup (nasSetup.records cpuBefore) cpuAdopted).entries = [] := by decide
  refine (sameLegacy_iff nasSetup cpuBefore cpuAdopted (reenabled cpuRecreated) cpu_platform
    ⟨?_,?_⟩ ⟨?_,?_,?_⟩ ?_).mpr (by decide)
  · intro e hof
    have hne : e ≠ newEntity "truenas_cpu" "id-cpu" := by
      rintro rfl
      exact absurd hof (by decide)
    simp [hadopt,cpuAdopted,hne]
  · rw [hrecords]
    simp only [List.mem_singleton,forall_eq]
    exact ⟨newEntity "truenas_cpu" "id-cpu",by simp [cpuAdopted],by decide,by decide⟩
  · simp [hgone]
  · rw [hrecords]
    intro e he
    obtain rfl : e = legacyEntity "nas_cpu_2" "nas-cpu" none := by simpa [reenabled,cpuRecreated] using he
    exact Or.inr ⟨nasSetup.recordFor (legacyEntity "nas_cpu" "nas-cpu" (some "CPU")),by simp,by decide⟩
  · rw [hrecords]
    simp only [List.mem_singleton,forall_eq]
    refine ⟨legacyEntity "nas_cpu_2" "nas-cpu" none,by simp [reenabled,cpuRecreated],by decide,rfl,rfl,rfl,by decide,?_⟩
    exact not_temporary (by decide)
  · exact ⟨⟨"old",rfl,by decide⟩,rfl,rfl,rfl,rfl⟩

def parkedBefore : Registry :=
  ⟨[legacyEntity "truenas_ce_mig_1" "nas-a" none,legacyEntity "nas_b" "nas-b" none],by decide,by decide⟩
def parkedAdopted : Registry := ⟨[newEntity "a" "id-a",newEntity "b" "id-b"],by decide,by decide⟩
def parkedRecreated : Registry := ⟨[legacyEntity "nas_a" "nas-a" none,legacyEntity "nas_b_2" "nas-b" none],
  by decide,by decide⟩

theorem parked_platform : LegacyPlatform "old" parkedBefore := by
  simp [LegacyPlatform,parkedBefore,legacyEntity]

/-- The second entity is parked on the recorded id of the first, which then stays parked. -/
theorem not_sameLegacy_of_temporary_id : ¬ ∀ (c : Setup) (pre reg : Registry) (ha : Surroundings)
    (hplat : LegacyPlatform c.legacyEntryId pre),
    PlatformsSetUp c (c.records pre) (c.adopt pre) reg →
      Recreated (c.records pre) (withoutEntry c (c.records pre) reg) ha.registry →
    Reaches ⟨c.entryId,some c.legacyEntryId,c.records pre,c.records_distinct hplat⟩ ha →
    SameLegacy c.legacyEntryId pre
      (asyncRollbackToLegacy ⟨c.entryId,some c.legacyEntryId,c.records pre,c.records_distinct hplat⟩ ha).registry := by
  intro hall
  have hrecords : nasSetup.records parkedBefore =
      [nasSetup.recordFor (legacyEntity "truenas_ce_mig_1" "nas-a" none),
        nasSetup.recordFor (legacyEntity "nas_b" "nas-b" none)] := by decide
  have hadopt : (nasSetup.adopt parkedBefore).entries = [] := by decide
  have hgone : (withoutEntry nasSetup (nasSetup.records parkedBefore) parkedAdopted).entries = [] := by decide
  have hafter : (asyncRollbackToLegacy ⟨"ce",some "old",nasSetup.records parkedBefore,
    nasSetup.records_distinct parked_platform⟩
      (reenabled parkedRecreated)).registry.entries =
        [legacyEntity "truenas_ce_mig_0" "nas-a" none,legacyEntity "nas_b" "nas-b" none] := by decide
  have hsame := hall nasSetup parkedBefore parkedAdopted (reenabled parkedRecreated) parked_platform ⟨?_,?_⟩ ⟨?_,?_,?_⟩
    ⟨⟨"old",rfl,by decide⟩,rfl,rfl,rfl,rfl⟩
  · obtain ⟨e,he,_,hid,_⟩ := hsame (legacyEntity "truenas_ce_mig_1" "nas-a" none) (by decide) (by decide)
    have he' : e = legacyEntity "truenas_ce_mig_0" "nas-a" none ∨ e = legacyEntity "nas_b" "nas-b" none := by
      have : e ∈ [legacyEntity "truenas_ce_mig_0" "nas-a" none,legacyEntity "nas_b" "nas-b" none] := hafter ▸ he
      simpa using this
    rcases he' with rfl | rfl
    · exact absurd hid (by decide)
    · exact absurd hid (by decide)
  · intro e hof
    have hne : e ≠ newEntity "a" "id-a" ∧ e ≠ newEntity "b" "id-b" := by
      constructor
      · rintro rfl
        exact absurd hof (by decide)
      · rintro rfl
        exact absurd hof (by decide)
    simp [hadopt,parkedAdopted,hne]
  · rw [hrecords]
    simp only [List.mem_cons,List.not_mem_nil,or_false,forall_eq_or_imp,forall_eq]
    exact ⟨⟨newEntity "a" "id-a",by simp [parkedAdopted],by decide,by decide⟩,
      ⟨newEntity "b" "id-b",by simp [parkedAdopted],by decide,by decide⟩⟩
  · simp [hgone]
  · rw [hrecords]
    intro e he
    have he' : e = legacyEntity "nas_a" "nas-a" none ∨ e = legacyEntity "nas_b_2" "nas-b" none := by
      simpa [reenabled,parkedRecreated] using he
    rcases he' with rfl | rfl
    · exact Or.inr ⟨nasSetup.recordFor (legacyEntity "truenas_ce_mig_1" "nas-a" none),by simp,by decide⟩
    · exact Or.inr ⟨nasSetup.recordFor (legacyEntity "nas_b" "nas-b" none),by simp,by decide⟩
  · rw [hrecords]
    simp only [List.mem_cons,List.not_mem_nil,or_false,forall_eq_or_imp,forall_eq]
    exact ⟨⟨legacyEntity "nas_a" "nas-a" none,
      by simp [reenabled,parkedRecreated],by decide,rfl,rfl,rfl,by decide,not_temporary (by decide)⟩,
      ⟨legacyEntity "nas_b_2" "nas-b" none,
        by simp [reenabled,parkedRecreated],by decide,rfl,rfl,rfl,by decide,not_temporary (by decide)⟩⟩

end TruenasCE.Migration
