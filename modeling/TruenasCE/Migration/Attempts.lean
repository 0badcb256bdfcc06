import TruenasCE.Library.Transition
import TruenasCE.Migration.RoundTrip
import TruenasCE.Identity.UniqueIds

/-! # Setup attempts

The runs of `async_setup_entry`, as far as they touch entities. The marker of the adoption and the
freed records are persisted; the records that `finalize_legacy_adoption` re-attaches are
only in the memory of the attempt that freed them, so an attempt that ends before it
loses them, and entities that appear behind it are not re-attached.
-/
namespace TruenasCE.Migration
open Library Identity

/-- What the adoption reads of a legacy config entry. -/
structure LegacyEntry where
  entryId : String
  host : String
  name : String
  disabled : Bool
  deriving DecidableEq, Repr

/-- What stays the same over all attempts; `sanitize` is `sanitize_host`. -/
structure Site where
  lower : String → String
  sanitize : String → String
  entryId : String
  host : String

def Site.findLegacyEntry (c : Site) (candidates : List LegacyEntry) : Option LegacyEntry :=
  match candidates.find? (fun e => c.sanitize e.host == c.sanitize c.host) with
  | some e => some e
  | none =>
    match candidates with
    | [e] => some e
    | _ => none

/-- What an attempt meets: the legacy config entries, the answer of `async_set_disabled_by`,
the identity of the entry and the renames of its unique ids. -/
structure Attempt where
  candidates : List LegacyEntry
  disables : Bool
  identity : String
  renames : String → Option String

def Site.setup (c : Site) (a : Attempt) (legacy : LegacyEntry) : Setup :=
  ⟨c.lower,c.entryId,a.identity,legacy.entryId,legacy.name,a.renames⟩

/-- `done` and `freed` are persisted; `adopted` is what the running attempt has in memory. -/
structure State where
  registry : Registry
  done : Bool
  freed : List Record
  adopted : Option (List Record)

/-- `migrate` is one of the migrations of unique ids, by the map it renames with. -/
inductive Action
  | migrate (new : String → Option String)
  | adopt (a : Attempt)
  | cleanUp (orphaned : RegistryEntry → Bool)
  | appear (e : RegistryEntry)
  | raise
  | finalize

/-- `async_adopt_legacy_entities` -/
def Site.adopt (c : Site) (s : State) (a : Attempt) : State :=
  if s.done then { s with adopted := some [] }
  else
    match c.findLegacyEntry a.candidates with
    | none => { s with done := true, freed := [], adopted := some [] }
    | some legacy =>
      if legacy.disabled || a.disables then
        { registry := (c.setup a legacy).adopt s.registry
          done := true
          freed := (c.setup a legacy).records s.registry
          adopted := some ((c.setup a legacy).records s.registry) }
      else { s with adopted := some [] }

def Site.migrate (c : Site) (reg : Registry) (new : String → Option String) : Registry :=
  ended (renameUniqueIds new reg (entriesForConfigEntry reg c.entryId))

def Site.cleanUp (c : Site) (reg : Registry) (orphaned : RegistryEntry → Bool) : Registry :=
  reg.removeWhere (fun e => e.OfEntry c.entryId && orphaned e)

/-- An attempt migrates unique ids, adopts, cleans up and finalizes, or raises in between;
entities are registered at any time. -/
def Site.step (c : Site) (s : State) : Action → Option State
  | .migrate new =>
    match s.adopted with
    | none => some { s with registry := c.migrate s.registry new }
    | some _ => none
  | .adopt a =>
    match s.adopted with
    | none => some (c.adopt s a)
    | some _ => none
  | .cleanUp orphaned => s.adopted.map (fun _ => { s with registry := c.cleanUp s.registry orphaned })
  | .appear e => (s.registry.register e).map (fun r => { s with registry := r })
  | .raise => s.adopted.map (fun _ => { s with adopted := none })
  | .finalize => s.adopted.map (fun records =>
      { s with registry := leaves (finalizeLegacyAdoption s.registry records), adopted := none })

def Site.system (c : Site) : System State Action where
  init s := s.done = false ∧ s.freed = [] ∧ s.adopted = none
  step := c.step

def HeldByOther (records : List Record) (reg : Registry) (id : EntityId) : Prop :=
  ∃ e ∈ reg.entries, e.entityId = id ∧ e.key ∉ records.map Record.targetKey

/-- Each freed record whose entity is registered is on its legacy id, unless another entity
holds that. -/
def Reattached (records : List Record) (reg : Registry) : Prop :=
  ∀ r ∈ records, ∀ e ∈ reg.entries, e.key = r.targetKey → e.entityId = r.entityId ∨ HeldByOther records reg r.entityId

instance (records : List Record) (reg : Registry) (id : EntityId) : Decidable (HeldByOther records reg id) :=
  inferInstanceAs (Decidable (∃ e ∈ reg.entries, _))

instance (records : List Record) (reg : Registry) : Decidable (Reattached records reg) :=
  inferInstanceAs (Decidable (∀ r ∈ records, ∀ e ∈ reg.entries, _))

def State.Pending (s : State) : Prop := ∃ records ∈ s.adopted, records ≠ []

/-- The unique ids the legacy entities have in this integration are distinct. -/
def Site.Translates (c : Site) (s : State) (a : Attempt) : Prop :=
  ∀ legacy ∈ c.findLegacyEntry a.candidates, (((c.setup a legacy).records s.registry).map Record.targetKey).Nodup

/-- A change takes no freed id from another entity while the entity of its record is registered. -/
def Spares (records : List Record) (reg : Registry) (touched : RegistryEntry → Prop) : Prop :=
  ∀ e ∈ reg.entries, touched e → e.key ∉ records.map Record.targetKey →
    ∀ r ∈ records, r.entityId = e.entityId → reg.find r.targetKey = none

/-- The steps that lose no freed record: an attempt that freed ids raises before it has registered an entity of theirs,
and an entity that appears outside such an attempt is registered under its legacy id. -/
def Site.Keeps (c : Site) (s : State) : Action → Prop
  | .migrate new => Spares s.freed s.registry (fun e => e.OfEntry c.entryId = true ∧ new e.uniqueId ≠ none) ∧
      ∀ e ∈ s.registry.entries, e.OfEntry c.entryId = true → ∀ r ∈ s.freed, new e.uniqueId ≠ none →
        (renamed new e).key = r.targetKey → e.entityId = r.entityId
  | .adopt a => s.done = false → c.Translates s a
  | .cleanUp orphaned => s.Pending ∨ Spares s.freed s.registry (fun e => e.OfEntry c.entryId = true ∧ orphaned e = true)
  | .appear e => s.Pending ∨ ∀ r ∈ s.freed, e.key = r.targetKey → e.entityId = r.entityId
  | .raise => s.Pending → ∀ r ∈ s.freed, s.registry.find r.targetKey = none
  | .finalize => ∀ m ∈ pairsOf s.registry Record.targetKey s.freed, ¬ m.target.Temporary

section Records
variable {records : List Record} {reg r : Registry} {id : EntityId}

theorem HeldByOther.mono (h : HeldByOther records reg id) (hsub : ∀ e ∈ reg.entries, e ∈ r.entries) :
    HeldByOther records r id := by
  obtain ⟨e,he,hid,hk⟩ := h
  exact ⟨e,hsub e he,hid,hk⟩

theorem reattached_of_unregistered (h : ∀ x ∈ records, reg.find x.targetKey = none) : Reattached records reg := by
  intro x hx e he hkey
  have hfind := h x hx
  rw [← hkey,Registry.find_key he] at hfind
  cases hfind

def finalMoves (reg : Registry) (records : List Record) : List (Key × EntityId) :=
  (pairsOf reg Record.targetKey records).map (moveOf Record.targetKey)

theorem mem_finalMoves {a : Key × EntityId} : a ∈ finalMoves reg records ↔
    ∃ x ∈ records, (reg.getEntityId x.targetKey).isSome = true ∧ a = (x.targetKey,x.entityId) := by
  simp only [finalMoves,List.mem_map,Option.isSome_iff_exists]
  constructor
  · rintro ⟨m,hm,rfl⟩
    obtain ⟨hr,hcur,ht⟩ := mem_pairsOf.mp hm
    exact ⟨m.record,hr,⟨_,hcur⟩,by rw [moveOf,ht]⟩
  · rintro ⟨x,hx,⟨id,hid⟩,rfl⟩
    exact ⟨⟨id,x.entityId,x⟩,mem_pairsOf.mpr ⟨hx,hid,rfl⟩,rfl⟩

theorem apart_of_parked {mid : Registry} {parked : List Move}
    (hp : Parked reg mid Record.targetKey (pairsOf reg Record.targetKey records) parked)
    (hmoves : parked.map (moveOf Record.targetKey) = finalMoves reg records)
    (hn : ((finalMoves reg records).map Prod.snd).Nodup)
    (ht : ∀ m ∈ pairsOf reg Record.targetKey records, ¬ m.target.Temporary) :
    ∀ a ∈ finalMoves reg records, ∀ b ∈ finalMoves reg records, mid.getEntityId b.1 = some a.2 → b.1 = a.1 := by
  rw [← hmoves]
  intro a ha b hb hat
  obtain ⟨m,hm,rfl⟩ := List.mem_map.mp ha
  obtain ⟨n,hnm,rfl⟩ := List.mem_map.mp hb
  have hcur : n.current = m.target := Option.some.inj ((hp.placed n hnm).symm.trans hat)
  rcases hp.temporary n hnm with hon | htemp
  · rw [← hmoves] at hn
    have heq : moveOf Record.targetKey n = moveOf Record.targetKey m :=
      List.inj_on_of_nodup_map hn (List.mem_map_of_mem hnm) (List.mem_map_of_mem hm) (hon.symm.trans hcur)
    rw [heq]
  · obtain ⟨m',hm',htar,_⟩ := hp.mem_iff.mp ⟨m,hm,rfl,rfl⟩
    rw [hcur,← htar] at htemp
    exact absurd htemp (ht m' hm')

theorem finalize_settles (hk : (records.map Record.targetKey).Nodup) (hi : (records.map Record.entityId).Nodup)
    (hd : ∀ r ∈ records, r.entityId.domain = r.entityDomain)
    (ht : ∀ m ∈ pairsOf reg Record.targetKey records, ¬ m.target.Temporary) :
    ∃ mid : Registry, (∀ k, k ∉ (finalMoves reg records).map Prod.fst → mid.getEntityId k = reg.getEntityId k) ∧
      (leaves (finalizeLegacyAdoption reg records)).getEntityId =
        Placement.settle mid.getEntityId (finalMoves reg records) ∧
      ∀ a ∈ finalMoves reg records, Placement.settle mid.getEntityId (finalMoves reg records) a.1 = some a.2 ∨
        Placement.HeldOutside mid.getEntityId (finalMoves reg records) a.2 := by
  have hrm : Remappable reg Record.targetKey (pairsOf reg Record.targetKey records) := remappable_pairsOf hk hi hd
  obtain ⟨mid,r,parked,outcomes,hrun,_,hp,hs⟩ := remapAndRestore_spec hrm
  have hmoves : parked.map (moveOf Record.targetKey) = finalMoves reg records :=
    hp.map_eq (fun target record => (record.targetKey,target))
  have hkeys : (finalMoves reg records).map Prod.fst =
      (pairsOf reg Record.targetKey records).map (fun m => m.record.targetKey) := by
    rw [finalMoves,List.map_map]
    rfl
  have htargets : ((finalMoves reg records).map Prod.snd).Nodup := by
    rw [finalMoves,List.map_map]
    exact hrm.targets
  refine ⟨mid,fun k hk' => hp.others k (hkeys ▸ hk'),?_,?_⟩
  · rw [finalizeLegacyAdoption,hrun,← hmoves]
    exact hs.place
  · exact Placement.settle_or_heldOutside mid.apart (hkeys ▸ hrm.keys) htargets (apart_of_parked hp hmoves htargets ht)

/-- Finalizing distinct records re-attaches them; no freed id is a temporary one. -/
theorem reattached_finalize (hk : (records.map Record.targetKey).Nodup) (hi : (records.map Record.entityId).Nodup)
    (hd : ∀ r ∈ records, r.entityId.domain = r.entityDomain)
    (ht : ∀ m ∈ pairsOf reg Record.targetKey records, ¬ m.target.Temporary) :
    Reattached records (leaves (finalizeLegacyAdoption reg records)) := by
  obtain ⟨mid,hothers,hplace,hsettle⟩ := finalize_settles hk hi hd ht
  -- what is registered for a record in the end has been moved
  have hmoved : ∀ x ∈ records, ∀ e ∈ (leaves (finalizeLegacyAdoption reg records)).entries, e.key = x.targetKey →
      (x.targetKey,x.entityId) ∈ finalMoves reg records := by
    intro x hx e he hek
    have hat : (leaves (finalizeLegacyAdoption reg records)).getEntityId x.targetKey = some e.entityId :=
      Registry.getEntityId_eq_some_iff.mpr ⟨e,he,hek,rfl⟩
    by_cases hmem : x.targetKey ∈ (finalMoves reg records).map Prod.fst
    · obtain ⟨a,ha,hax⟩ := List.mem_map.mp hmem
      obtain ⟨y,hy,_,rfl⟩ := mem_finalMoves.mp ha
      obtain rfl : y = x := List.inj_on_of_nodup_map hk hy hx hax
      exact ha
    · rw [hplace,Placement.settle_of_notMem hmem,hothers _ hmem] at hat
      exact mem_finalMoves.mpr ⟨x,hx,by rw [hat]; rfl,rfl⟩
  intro x hx e he hek
  rcases hsettle _ (hmoved x hx e he hek) with hon | ⟨k,hk',hheld⟩
  · have hat : (leaves (finalizeLegacyAdoption reg records)).getEntityId x.targetKey = some e.entityId :=
      Registry.getEntityId_eq_some_iff.mpr ⟨e,he,hek,rfl⟩
    rw [hplace,hon] at hat
    exact Or.inl (Option.some.inj hat).symm
  · have hat : (leaves (finalizeLegacyAdoption reg records)).getEntityId k = some x.entityId := by
      rw [hplace,Placement.settle_of_notMem hk',hheld]
    obtain ⟨y,hy,hyk,hyid⟩ := Registry.getEntityId_eq_some_iff.mp hat
    refine Or.inr ⟨y,hy,hyid,fun hin => hk' ?_⟩
    obtain ⟨z,hz,hzk⟩ := List.mem_map.mp hin
    exact List.mem_map.mpr ⟨_,hmoved z hz y hy hzk.symm,hzk.trans hyk⟩

end Records

/-- What holds between the steps of a run that loses no freed record. -/
structure Sound (s : State) : Prop where
  fresh : s.done = false → s.freed = []
  targets : (s.freed.map Record.targetKey).Nodup
  ids : (s.freed.map Record.entityId).Nodup
  domain : ∀ r ∈ s.freed, r.entityId.domain = r.entityDomain
  adopted : ∀ records ∈ s.adopted, records = [] ∨ records = s.freed
  reattached : ¬ s.Pending → Reattached s.freed s.registry

section Steps
variable {c : Site} {s t : State}

theorem reattached_nil (reg : Registry) : Reattached [] reg := by simp [Reattached]

theorem Sound.idle (h : Sound s) (hp : ¬ s.Pending) {adopted : Option (List Record)}
    (ha : adopted = none ∨ adopted = some [])
    {done : Bool} (hd : done = false → s.done = false) : Sound { s with done := done, adopted := adopted } where
  fresh hf := h.fresh (hd hf)
  targets := h.targets
  ids := h.ids
  domain := h.domain
  adopted := by
    rcases ha with rfl | rfl <;> simp
  reattached _ := h.reattached hp

theorem sound_adopt (h : Sound s) (a : Attempt) (hnone : s.adopted = none) (hk : s.done = false → c.Translates s a) :
    Sound (c.adopt s a) := by
  have hidle : ¬ s.Pending := by simp [State.Pending,hnone]
  unfold Site.adopt
  split
  · exact h.idle hidle (Or.inr rfl) (fun hd => hd)
  rename_i hdone
  have hdone' : s.done = false := by simpa using hdone
  split
  · have hfreed := h.fresh hdone'
    have hs : Sound { s with done := true, adopted := some [] } := h.idle hidle (Or.inr rfl) (by simp)
    rwa [hfreed] at hs
  rename_i legacy hfind
  split
  · constructor
    · simp
    · exact hk hdone' legacy hfind
    · exact Setup.nodup_entityIds
    · exact fun r hr => Setup.domain_records hr
    · simp
    · intro hp
      have hempty : (c.setup a legacy).records s.registry = [] := by
        by_contra hne
        exact hp ⟨_,rfl,hne⟩
      simp only [hempty]
      exact reattached_nil _
  · exact h.idle hidle (Or.inr rfl) (fun hd => hd)

theorem Sound.registry (h : Sound s) {reg : Registry} (hr : ¬ s.Pending → Reattached s.freed reg) :
    Sound { s with registry := reg } :=
  ⟨h.fresh,h.targets,h.ids,h.domain,h.adopted,hr⟩

/-- Entities that keep their ids and unique ids stay re-attached when no freed id is vacated. -/
theorem reattached_of_spares {records : List Record} {reg r : Registry} {touched : RegistryEntry → Prop}
    (h : Reattached records reg)
    (hs : Spares records reg touched) (hstays : ∀ x ∈ reg.entries, ¬ touched x → x ∈ r.entries)
    (hfrom : ∀ x ∈ r.entries, ∀ k ∈ records, x.key = k.targetKey → x ∈ reg.entries ∨ x.entityId = k.entityId) :
    Reattached records r := by
  intro k hk e he hkey
  rcases hfrom e he k hk hkey with hmem | hon
  · rcases h k hk e hmem hkey with hon | ⟨x,hx,hxid,hxk⟩
    · exact Or.inl hon
    by_cases ht : touched x
    · -- the holder would be touched although the entity of the record is registered
      have hfind := hs x hx ht hxk k hk hxid.symm
      rw [← hkey,Registry.find_key hmem] at hfind
      cases hfind
    · exact Or.inr ⟨x,hstays x hx ht,hxid,hxk⟩
  · exact Or.inl hon

theorem reattached_cleanUp {records : List Record} {reg : Registry} {orphaned : RegistryEntry → Bool}
    (h : Reattached records reg)
    (hs : Spares records reg (fun e => e.OfEntry c.entryId = true ∧ orphaned e = true)) :
    Reattached records (c.cleanUp reg orphaned) := by
  refine reattached_of_spares h hs (fun x hx ht => ?_) (fun x hx _ _ _ => Or.inl (List.mem_filter.mp hx).1)
  rw [← Bool.and_eq_true,Bool.not_eq_true] at ht
  have hstays : (!(x.OfEntry c.entryId && orphaned x)) = true := by rw [ht,Bool.not_false]
  exact List.mem_filter.mpr ⟨hx,hstays⟩

theorem reattached_migrate {records : List Record} {reg : Registry} {new : String → Option String}
    (h : Reattached records reg)
    (hs : Spares records reg (fun e => e.OfEntry c.entryId = true ∧ new e.uniqueId ≠ none))
    (hk : ∀ e ∈ reg.entries, e.OfEntry c.entryId = true → ∀ r ∈ records, new e.uniqueId ≠ none →
      (renamed new e).key = r.targetKey → e.entityId = r.entityId) : Reattached records (c.migrate reg new) := by
  refine reattached_of_spares h hs (fun x hx ht => kept_entry hx (fun hof => ?_)) (fun x hx k hkm hkey => ?_)
  · by_contra hne
    exact ht ⟨hof,hne⟩
  · rcases mem_entry hx with hold | ⟨e,he,hof,rfl⟩
    · exact Or.inl hold
    by_cases hne : new e.uniqueId = none
    · rw [renamed_of_none hne]
      exact Or.inl he
    · rw [renamed_entityId]
      exact Or.inr (hk e he hof k hkm hne hkey)

theorem reattached_register {records : List Record} {reg r : Registry} {e : RegistryEntry} (h : Reattached records reg)
    (hr : reg.register e = some r) (hk : ∀ x ∈ records, e.key = x.targetKey → e.entityId = x.entityId) :
    Reattached records r := by
  have hsub : ∀ x ∈ reg.entries, x ∈ r.entries := fun x hx => (Registry.mem_register hr).mpr (Or.inl hx)
  intro x hx y hy hkey
  rcases (Registry.mem_register hr).mp hy with hold | rfl
  · exact (h x hx y hold hkey).imp id (fun hheld => hheld.mono hsub)
  · exact Or.inl (hk x hx hkey)

theorem reattached_of_finalize (h : Sound s) {records : List Record} (hrec : s.adopted = some records)
    (hk : ∀ m ∈ pairsOf s.registry Record.targetKey s.freed, ¬ m.target.Temporary) :
    Reattached s.freed (leaves (finalizeLegacyAdoption s.registry records)) := by
  rcases h.adopted records hrec with rfl | rfl
  · -- nothing was freed by this attempt, and nothing is moved
    exact h.reattached (by simp [State.Pending,hrec])
  · exact reattached_finalize h.targets h.ids h.domain hk

theorem sound_step {a : Action} (h : Sound s) (hk : c.Keeps s a) (hstep : c.step s a = some t) : Sound t := by
  cases a with
  | migrate new =>
    simp only [Site.step] at hstep
    split at hstep
    · rename_i hnone
      cases hstep
      apply h.registry
      intro hp
      exact reattached_migrate (h.reattached hp) hk.1 hk.2
    · cases hstep
  | adopt a =>
    simp only [Site.step] at hstep
    split at hstep
    · rename_i hnone
      cases hstep
      exact sound_adopt h a hnone hk
    · cases hstep
  | cleanUp orphaned =>
    obtain ⟨records,_,rfl⟩ := Option.map_eq_some_iff.mp hstep
    apply h.registry
    intro hp
    rcases hk with hpending | hk
    · exact absurd hpending hp
    · exact reattached_cleanUp (h.reattached hp) hk
  | appear e =>
    obtain ⟨r,hr,rfl⟩ := Option.map_eq_some_iff.mp hstep
    apply h.registry
    intro hp
    rcases hk with hpending | hk
    · exact absurd hpending hp
    · exact reattached_register (h.reattached hp) hr hk
  | raise =>
    obtain ⟨records,hrec,rfl⟩ := Option.map_eq_some_iff.mp hstep
    refine ⟨h.fresh,h.targets,h.ids,h.domain,by simp,fun _ => ?_⟩
    by_cases hp : s.Pending
    · exact reattached_of_unregistered (hk hp)
    · exact h.reattached hp
  | finalize =>
    obtain ⟨records,hrec,rfl⟩ := Option.map_eq_some_iff.mp hstep
    exact ⟨h.fresh,h.targets,h.ids,h.domain,by simp,fun _ => reattached_of_finalize h hrec hk⟩

theorem sound_init (h : c.system.init s) : Sound s := by
  obtain ⟨_,hfreed,hnone⟩ := h
  constructor
  · exact fun _ => hfreed
  · simp [hfreed]
  · simp [hfreed]
  · simp [hfreed]
  · simp [hnone]
  · intro _
    rw [hfreed]
    exact reattached_nil s.registry

theorem sound_of_reach (hr : c.system.Reach c.Keeps s) : Sound s := hr.invariant (fun _ => sound_init) sound_step

end Steps

/-- Between attempts every freed record whose entity is registered carries its legacy id or
leaves it to another entity, in every run that loses no freed record. -/
theorem reattached_of_reach (c : Site) {s : State} (hr : c.system.Reach c.Keeps s) (hidle : s.adopted = none) :
    Reattached s.freed s.registry :=
  (sound_of_reach hr).reattached (by simp [State.Pending,hidle])

/-- The entry `ce` migrates the entities of the legacy entry `old`. -/
def nasSite : Site := ⟨id,id,"ce","nas.local"⟩
def nasEntry : LegacyEntry := ⟨"old","nas.local","nas",false⟩
def nasAttempt : Attempt := ⟨[nasEntry],true,"id",fun _ => none⟩
def cpuEntity : RegistryEntry := newEntity "truenas_cpu" "id-cpu"
def beforeAdoption : State := ⟨cpuBefore,false,[],none⟩
def cpuFreed : State := nasSite.adopt beforeAdoption nasAttempt
def cpuAppeared : State := (nasSite.step cpuFreed (.appear cpuEntity)).get (by decide)

/-- An attempt that is not interrupted re-attaches the entity it meets elsewhere. -/
theorem reattached_of_reach_finalize : ∃ s, nasSite.system.Reach nasSite.Keeps s ∧ s.freed ≠ [] ∧
    Reattached s.freed s.registry := by
  have hfreed : nasSite.system.Reach nasSite.Keeps cpuFreed := by
    refine (System.Reach.init (M := nasSite.system) (s := beforeAdoption) ⟨rfl,rfl,
      rfl⟩).step (a := .adopt nasAttempt) ?_ rfl
    intro _ legacy hl
    have hfind : nasSite.findLegacyEntry nasAttempt.candidates = some nasEntry := by decide
    obtain rfl : nasEntry = legacy := Option.some.inj (hfind.symm.trans hl)
    decide
  have happeared : nasSite.system.Reach nasSite.Keeps cpuAppeared :=
    hfreed.step (a := .appear cpuEntity) (Or.inl ⟨_,rfl,by decide⟩) (Option.some_get _).symm
  have hpairs : ∀ m ∈ pairsOf cpuAppeared.registry Record.targetKey cpuAppeared.freed,
    m.target = ⟨"sensor","nas_cpu"⟩ := by decide
  have hkeeps : nasSite.Keeps cpuAppeared .finalize := by
    intro m hm
    rw [hpairs m hm]
    exact not_temporary (by decide)
  have hfinal := happeared.step hkeeps rfl
  exact ⟨_,hfinal,by decide,reattached_of_reach nasSite hfinal rfl⟩

/-- The records of an attempt that raises before it finalizes are never re-attached. -/
theorem not_reattached_of_raise : ¬ ∀ (c : Site) (s : State), c.system.Reachable s → s.adopted = none →
    Reattached s.freed s.registry := by
  intro hall
  obtain ⟨s,hr,hidle,hlost⟩ := nasSite.system.exists_reach_of_run (fun _ _ => True) (s := beforeAdoption) ⟨rfl,rfl,rfl⟩
    [.adopt nasAttempt,.raise,.adopt nasAttempt,.appear cpuEntity,.finalize]
    (fun s => s.adopted = none ∧ ¬ Reattached s.freed s.registry) (by decide)
  exact hlost (hall nasSite s hr hidle)

end TruenasCE.Migration
