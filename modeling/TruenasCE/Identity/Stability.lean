import TruenasCE.Library.Transition
import TruenasCE.Identity.UniqueIds

/-! # The identity prefix over setups and flows

One config entry with its setups and its reauth and reconfigure flows. A flow may store the
system id into an entry that had none, and the identity of the entry changes; the next setup
rewrites the prefix of the display name only. Each registered entity is judged against the
object it was created for.
-/
namespace TruenasCE.Identity
open Library Migration

/-- What stays the same over a run; `systemId` is what `system.global.id` answers. -/
structure Site where
  text : Text
  entryId : String
  name : String
  systemId : String
  descriptions : List Description

/-- What a setup meets: the data of the coordinator, what the orphan cleanup reads of it, and the
objects that get an entity, each with the entity id Home Assistant has for a new one. -/
structure Listing where
  data : Data
  updated : Bool
  active : List String
  liveBases : List String
  objects : List (EntityId × String)

/-- `owner` tells for each entity which object it was created for, by the suffix of its unique
id; `listed` are the objects of the setup that has just completed. -/
structure State where
  registry : Registry
  systemId : Option String
  owner : EntityId → String
  listed : Option (List (EntityId × String))

/-- The outcome of `connection_test` and of the read of `system.global.id`. -/
structure Validation where
  connects : Bool
  answers : Bool

/-- A reconfiguration that leaves the connection settings alone is not validated. -/
inductive Action
  | setUp (l : Listing)
  | reauth (v : Validation)
  | reconfigure (v : Option Validation)

def Site.identity (c : Site) (systemId : Option String) : String := resolveEntryIdentity systemId c.entryId

def Site.current (c : Site) (systemId : Option String) : String := c.text.prefixOf (c.identity systemId)

def Site.former (c : Site) : String := c.text.prefixOf c.name

def Site.getSystemId (c : Site) (v : Validation) : Option String :=
  if v.answers && c.systemId ≠ "" then some c.systemId else none

/-- The system id of the config behind `_validate_connection`; an error accepts nothing. -/
def Site.validateConnection (c : Site) (systemId : Option String) (v : Validation) : Option (Option String) :=
  if v.connects then some ((c.getSystemId v).or systemId) else none

def Site.reauthConfirm (c : Site) (s : State) (v : Validation) : State :=
  match c.validateConnection s.systemId v with
  | none => s
  | some systemId => { s with systemId := systemId, listed := none }

def Site.reconfigure (c : Site) (s : State) : Option Validation → State
  | none => { s with listed := none }
  | some v =>
    match c.validateConnection s.systemId v with
    | none => s
    | some systemId => { s with systemId := systemId, listed := none }

/-- What `_cleanup_orphaned_entities` removes. -/
def orphaned (pre : String) (l : Listing) (uniqueId : String) : Bool :=
  l.updated && decide (uniqueId ∉ l.active.map (fun a => pre ++ a)) &&
    l.liveBases.any (fun base => decide (uniqueId = pre ++ base ∨ (pre ++ base ++ "-").toList <+: uniqueId.toList))

def Site.cleanupOrphanedEntities (c : Site) (pre : String) (l : Listing) (reg : Registry) : Registry :=
  reg.removeWhere (fun e => e.OfEntry c.entryId && orphaned pre l e.uniqueId)

def Listed (objects : List (EntityId × String)) (domain object : String) : Prop :=
  ∃ o ∈ objects, o.1.domain = domain ∧ o.2 = object

instance (objects : List (EntityId × String)) (domain object : String) : Decidable (Listed objects domain object) :=
  inferInstanceAs (Decidable (∃ o ∈ objects, _))

/-- The migration of the formats may hand an entity over to another object when its own is no
longer listed. -/
def handOver (pre : String) (objects : List (EntityId × String)) (before after : Registry)
  (owner : EntityId → String) : EntityId → String :=
  fun id =>
    match before.get id, after.get id with
    | some x, some y =>
      if x.uniqueId = y.uniqueId ∨
        Listed objects id.domain (owner id) then owner id else (stripPrefix pre y.uniqueId).getD (owner id)
    | _, _ => owner id

/-- Whose the entity of a listed object is; one the entry has already stays. -/
def Site.claim (c : Site) (pre : String) (reg : Registry) (owner : EntityId → String) (o : EntityId × String) :
  EntityId → String :=
  match reg.find ⟨o.1.domain,domain,pre ++ o.2⟩ with
  | none => Function.update owner o.1 o.2
  | some e => if e.OfEntry c.entryId then owner else Function.update owner e.entityId o.2

def Site.addEntities (c : Site) (pre : String) : Registry → (EntityId → String) → List (EntityId × String) →
    Option (Registry × (EntityId → String))
  | reg, owner, [] => some (reg,owner)
  | reg, owner, o :: rest =>
    (reg.getOrCreate o.1 domain (pre ++ o.2) c.entryId).bind (fun r =>
      c.addEntities pre r (c.claim pre reg owner o) rest)

/-- `async_setup_entry`, as far as it touches the entities of the entry; it may raise in the
migrations. -/
def Site.setUp (c : Site) (s : State) (l : Listing) : Option State :=
  match c.text.migrateEntryIdentityNamespace c.entryId c.name (c.identity s.systemId) s.registry with
  | .error r => some { s with registry := r, listed := none }
  | .ok r₁ =>
    match c.text.migrateLegacyUniqueIds c.entryId (c.identity s.systemId) c.descriptions l.data r₁ with
    | .error r =>
      some { s with registry := r, owner := handOver (c.current s.systemId) l.objects r₁ r s.owner, listed := none }
    | .ok r₂ =>
      (c.addEntities (c.current s.systemId) (c.cleanupOrphanedEntities (c.current s.systemId) l r₂)
        (handOver (c.current s.systemId) l.objects r₁ r₂ s.owner) l.objects).map
          (fun p => { s with registry := p.1, owner := p.2, listed := some l.objects })

def Site.step (c : Site) (s : State) : Action → Option State
  | .setUp l => c.setUp s l
  | .reauth v => some (c.reauthConfirm s v)
  | .reconfigure v => some (c.reconfigure s v)

/-- The entities of the entry carry the prefix of the identity, or that of the display name from
before it. -/
def Site.Named (c : Site) (systemId : Option String) (reg : Registry) (owner : EntityId → String) : Prop :=
  ∀ e ∈ reg.entries, e.OfEntry c.entryId = true → e.platform = domain ∧
    (e.uniqueId = c.current systemId ++ owner e.entityId ∨ e.uniqueId = c.former ++ owner e.entityId)

def Site.system (c : Site) : System State Action where
  init s := (s.systemId = none ∨ s.systemId = some c.systemId) ∧ c.Named s.systemId s.registry s.owner ∧ s.listed = none
  step := c.step

structure Stable (c : Site) (s : State) (objects : List (EntityId × String)) : Prop where
  current : ∀ e ∈ s.registry.entries, e.OfEntry c.entryId = true →
    Listed objects e.entityId.domain (s.owner e.entityId) →
    e.uniqueId = c.current s.systemId ++ s.owner e.entityId
  single : ∀ e ∈ s.registry.entries, ∀ x ∈ s.registry.entries, e.OfEntry c.entryId = true → x.OfEntry c.entryId = true →
    Listed objects e.entityId.domain (s.owner e.entityId) → x.entityId.domain = e.entityId.domain →
    s.owner x.entityId = s.owner e.entityId → x = e

/-- The prefix of the display name tells the entities that still carry it from the others. -/
def Site.Separate (c : Site) (s : State) : Prop :=
  ∀ e ∈ s.registry.entries, e.OfEntry c.entryId = true →
    if e.uniqueId = c.current s.systemId ++ s.owner e.entityId then
      c.name = "" ∨ c.former = c.current s.systemId ∨ ¬ c.former.toList <+: e.uniqueId.toList
    else c.name ≠ ""

/-- The migration of the formats takes no entity from a listed object. -/
def Site.Spares (c : Site) (s : State) (l : Listing) : Prop :=
  ∀ e ∈ s.registry.entries, e.OfEntry c.entryId = true → Listed l.objects e.entityId.domain (s.owner e.entityId) →
    collectUniqueIdRenames c.text (c.identity s.systemId) c.descriptions l.data
      (c.current s.systemId ++ s.owner e.entityId) = none

def Site.Accepts (c : Site) (s : State) (v : Validation) : Prop :=
  ∀ systemId, c.validateConnection s.systemId v = some systemId → c.identity systemId = c.identity s.systemId ∨
    ∀ e ∈ s.registry.entries, e.OfEntry c.entryId = true → e.uniqueId = c.former ++ s.owner e.entityId

/-- The steps that keep the prefix of every registered entity covered. -/
def Site.Covers (c : Site) (s : State) : Action → Prop
  | .setUp l => c.Separate s ∧ c.Spares s l
  | .reauth v => c.Accepts s v
  | .reconfigure none => True
  | .reconfigure (some v) => c.Accepts s v

/-- All entities of the entry have the unique id that is computed for them. -/
def Site.AllCurrent (c : Site) (pre : String) (reg : Registry) (owner : EntityId → String) : Prop :=
  ∀ e ∈ reg.entries, e.OfEntry c.entryId = true → e.platform = domain ∧ e.uniqueId = pre ++ owner e.entityId

section Setup
variable {c : Site} {s : State} {l : Listing} {reg r : Registry} {owner : EntityId → String} {pre : String}

theorem namespace_spec (hn : c.Named s.systemId s.registry s.owner) (hs : c.Separate s) :
    Post (fun r => c.Named s.systemId r s.owner) (fun r => c.AllCurrent (c.current s.systemId) r s.owner ∧
        ∀ x ∈ r.entries, x.OfEntry c.entryId = true → ∃ e ∈ s.registry.entries, e.OfEntry c.entryId = true ∧
          e.entityId = x.entityId)
      (c.text.migrateEntryIdentityNamespace c.entryId c.name (c.identity s.systemId) s.registry) := by
  -- one renamed entity
  have hone : c.name ≠ "" → ∀ e ∈ s.registry.entries, e.OfEntry c.entryId = true →
      (renamed (c.text.namespaceRename c.name (c.identity s.systemId)) e).uniqueId = c.current s.systemId ++
        s.owner e.entityId := by
    intro hname e he hof
    have hsep := hs e he hof
    obtain ⟨_,hcases⟩ := hn e he hof
    by_cases hcur : e.uniqueId = c.current s.systemId ++ s.owner e.entityId
    · rw [if_pos hcur] at hsep
      cases hnew : c.text.namespaceRename c.name (c.identity s.systemId) e.uniqueId with
      | none => rwa [renamed_of_none hnew]
      | some uniqueId =>
        obtain ⟨rest,hrest,rfl⟩ := Option.map_eq_some_iff.mp hnew
        have huid : e.uniqueId = c.former ++ rest := eq_of_stripPrefix hrest
        rw [renamed_of_some hnew]
        rcases hsep with hempty | hsame | hnot
        · exact absurd hempty hname
        · rw [hsame] at huid
          exact huid.symm.trans hcur
        · refine absurd ?_ hnot
          rw [huid]
          simp
    · have hformer := hcases.resolve_left hcur
      have hnew : c.text.namespaceRename c.name (c.identity s.systemId) e.uniqueId = some
        (c.current s.systemId ++ s.owner e.entityId) := by
        rw [hformer,Text.namespaceRename,Site.former,stripPrefix_append]
        rfl
      rw [renamed_of_some hnew]
  unfold Text.migrateEntryIdentityNamespace
  split
  · rename_i hskip
    refine ⟨fun e he hof => ⟨(hn e he hof).1,?_⟩,fun x hx hof => ⟨x,hx,hof,rfl⟩⟩
    by_contra hcur
    have hsep := hs e he hof
    rw [if_neg hcur] at hsep
    rcases hskip with hempty | hsame
    · exact hsep hempty
    · have hpre : c.former = c.current s.systemId := by rw [Site.former,Site.current,← hsame]
      exact hcur (hpre ▸ (hn e he hof).2.resolve_left hcur)
  · rename_i hgo
    simp only [not_or] at hgo
    refine (renameUniqueIds_entry _ s.registry c.entryId).imp (fun r hr x hx hof => ?_) (fun r hr =>
      ⟨fun x hx hof => ?_,fun x hx hof => ?_⟩)
    · rcases hr x hx with hold | ⟨e,he,heof,rfl⟩
      · exact hn x hold hof
      · refine ⟨?_,Or.inl ?_⟩
        · simpa using (hn e he heof).1
        · simpa using hone hgo.1 e he heof
    · rcases hr x hx with ⟨_,hnot⟩ | ⟨e,he,heof,rfl⟩
      · simp [hnot] at hof
      · constructor
        · simpa using (hn e he heof).1
        · simpa using hone hgo.1 e he heof
    · rcases hr x hx with ⟨_,hnot⟩ | ⟨e,he,heof,rfl⟩
      · simp [hnot] at hof
      · exact ⟨e,he,heof,renamed_entityId.symm⟩

theorem allCurrent_handOver {objects : List (EntityId × String)} {new : String → Option String}
    (ha : c.AllCurrent pre reg owner)
    (hr : ∀ x ∈ r.entries, x.OfEntry c.entryId = true → ∃ e ∈ reg.entries, e.OfEntry c.entryId = true ∧
      (x = e ∨ x = renamed new e))
    (hnew : ∀ old uniqueId, new old = some uniqueId → ∃ rest, uniqueId = pre ++ rest)
    (hs : ∀ e ∈ reg.entries, e.OfEntry c.entryId = true → Listed objects e.entityId.domain (owner e.entityId) →
      new (pre ++ owner e.entityId) = none) :
    c.AllCurrent pre r (handOver pre objects reg r owner) := by
  intro x hx hof
  obtain ⟨e,he,heof,hxe⟩ := hr x hx hof
  obtain ⟨hplat,huid⟩ := ha e he heof
  have hid : x.entityId = e.entityId := by
    rcases hxe with rfl | rfl
    · rfl
    · exact renamed_entityId
  have hplat' : x.platform = domain := by
    rcases hxe with rfl | rfl
    · exact hplat
    · simpa using hplat
  refine ⟨hplat',?_⟩
  have hbefore : reg.get x.entityId = some e := Registry.get_eq_some_iff.mpr ⟨he,hid.symm⟩
  have hafter : r.get x.entityId = some x := Registry.get_eq_some_iff.mpr ⟨hx,rfl⟩
  simp only [handOver,hbefore,hafter]
  split
  · rename_i hkept
    rcases hkept with hsame | hlisted
    · rw [← hsame,huid,hid]
    · rw [hid] at hlisted ⊢
      have hnone : new e.uniqueId = none := huid ▸ hs e he heof hlisted
      rcases hxe with rfl | rfl
      · exact huid
      · rw [renamed_of_none hnone,huid]
  · rename_i hgiven
    simp only [not_or] at hgiven
    have hxr : x = renamed new e := hxe.resolve_left (fun h => hgiven.1 (by rw [h]))
    cases hn : new e.uniqueId with
    | none =>
      rw [renamed_of_none hn] at hxr
      exact absurd (by rw [hxr]) hgiven.1
    | some uniqueId =>
      obtain ⟨rest,rfl⟩ := hnew _ _ hn
      rw [renamed_of_some hn] at hxr
      simp [hxr]

theorem formats_spec (ha : c.AllCurrent (c.current s.systemId) reg owner) {objects : List (EntityId × String)}
    {data : Data}
    (hs : ∀ e ∈ reg.entries, e.OfEntry c.entryId = true → Listed objects e.entityId.domain (owner e.entityId) →
      collectUniqueIdRenames c.text (c.identity s.systemId) c.descriptions data (c.current s.systemId ++
        owner e.entityId) = none) :
    Post (fun r => c.AllCurrent (c.current s.systemId) r (handOver (c.current s.systemId) objects reg r owner))
      (fun r => c.AllCurrent (c.current s.systemId) r (handOver (c.current s.systemId) objects reg r owner))
      (c.text.migrateLegacyUniqueIds c.entryId (c.identity s.systemId) c.descriptions data reg) := by
  have hnew : ∀ old uniqueId,
    collectUniqueIdRenames c.text (c.identity s.systemId) c.descriptions data old = some uniqueId →
      ∃ rest, uniqueId = c.current s.systemId ++ rest := by
    intro old uniqueId h
    obtain ⟨key,reference,rfl⟩ := collectUniqueIdRenames_current h
    exact ⟨_,rfl⟩
  refine (renameUniqueIds_entry _ reg c.entryId).imp (fun r hr => ?_) (fun r hr => ?_)
  · refine allCurrent_handOver ha (fun x hx hof => ?_) hnew hs
    rcases hr x hx with hold | ⟨e,he,heof,hxe⟩
    · exact ⟨x,hold,hof,Or.inl rfl⟩
    · exact ⟨e,he,heof,Or.inr hxe⟩
  · refine allCurrent_handOver ha (fun x hx hof => ?_) hnew hs
    rcases hr x hx with ⟨_,hnot⟩ | ⟨e,he,heof,hxe⟩
    · simp [hnot] at hof
    · exact ⟨e,he,heof,Or.inr hxe⟩

theorem allCurrent_removeWhere (ha : c.AllCurrent pre reg owner) (p : RegistryEntry → Bool) :
    c.AllCurrent pre (reg.removeWhere p) owner :=
  fun e he hof => ha e (List.mem_filter.mp he).1 hof

theorem claim_of_none {o : EntityId × String} (h : reg.find ⟨o.1.domain,domain,pre ++ o.2⟩ = none) :
    c.claim pre reg owner o = Function.update owner o.1 o.2 := by
  simp only [Site.claim,h]

theorem claim_of_own {o : EntityId × String} {e : RegistryEntry} (h : reg.find ⟨o.1.domain,domain,pre ++ o.2⟩ = some e)
    (hof : e.OfEntry c.entryId = true) : c.claim pre reg owner o = owner := by
  simp only [Site.claim,h,hof,if_true]

theorem claim_of_other {o : EntityId × String} {e : RegistryEntry}
    (h : reg.find ⟨o.1.domain,domain,pre ++ o.2⟩ = some e)
    (hof : e.OfEntry c.entryId ≠ true) : c.claim pre reg owner o = Function.update owner e.entityId o.2 := by
  simp only [Site.claim,h,if_neg hof]

theorem claim_of_mem {o : EntityId × String} (hr : reg.getOrCreate o.1 domain (pre ++ o.2) c.entryId = some r)
    {x : RegistryEntry}
    (hx : x ∈ reg.entries) (hof : x.OfEntry c.entryId = true) :
      c.claim pre reg owner o x.entityId = owner x.entityId := by
  cases he : reg.find ⟨o.1.domain,domain,pre ++ o.2⟩ with
  | none => rw [claim_of_none he,Function.update_of_ne (Registry.free_of_getOrCreate hr he x hx)]
  | some e =>
    by_cases heof : e.OfEntry c.entryId = true
    · rw [claim_of_own he heof]
    · have hne : x.entityId ≠ e.entityId := by
        intro hid
        rw [Registry.eq_of_entityId hx (Registry.find_eq_some_iff.mp he).1 hid] at hof
        exact heof hof
      rw [claim_of_other he heof,Function.update_of_ne hne]

theorem allCurrent_getOrCreate {o : EntityId × String} (ha : c.AllCurrent pre reg owner)
    (hr : reg.getOrCreate o.1 domain (pre ++ o.2) c.entryId = some r) :
      c.AllCurrent pre r (c.claim pre reg owner o) := by
  intro x hx hof
  rcases Registry.mem_getOrCreate hr hx with hold | ⟨hnone,rfl⟩ | ⟨e,he,rfl⟩
  · rw [claim_of_mem hr hold hof]
    exact ha x hold hof
  · rw [claim_of_none hnone,Function.update_self]
    exact ⟨rfl,rfl⟩
  · obtain ⟨hmem,hkey⟩ := Registry.find_eq_some_iff.mp he
    refine ⟨congrArg Key.platform hkey,?_⟩
    by_cases heof : e.OfEntry c.entryId = true
    · rw [claim_of_own he heof]
      exact (ha e hmem heof).2
    · rw [claim_of_other he heof,Function.update_self]
      exact congrArg Key.uniqueId hkey

theorem allCurrent_addEntities {objects : List (EntityId × String)} {owner' : EntityId → String}
    (ha : c.AllCurrent pre reg owner)
    (hr : c.addEntities pre reg owner objects = some (r,owner')) : c.AllCurrent pre r owner' := by
  induction objects generalizing reg owner with
  | nil =>
    cases hr
    exact ha
  | cons o rest ih =>
    obtain ⟨r₁,hr₁,hrest⟩ := Option.bind_eq_some_iff.mp hr
    exact ih (allCurrent_getOrCreate ha hr₁) hrest

theorem stable_of_allCurrent {objects : List (EntityId × String)}
    (ha : c.AllCurrent (c.current s.systemId) s.registry s.owner) :
    Stable c s objects where
  current e he hof _ := (ha e he hof).2
  single e he x hx heof hxof _ hdomain howner := by
    obtain ⟨hep,heu⟩ := ha e he heof
    obtain ⟨hxp,hxu⟩ := ha x hx hxof
    refine List.inj_on_of_nodup_map s.registry.keys hx he ?_
    simp only [RegistryEntry.key,hdomain,hxp,hep,hxu,heu,howner]

end Setup

/-- What holds between the steps of a covered run. -/
structure Sound (c : Site) (s : State) : Prop where
  named : c.Named s.systemId s.registry s.owner
  listed : s.listed ≠ none → c.AllCurrent (c.current s.systemId) s.registry s.owner

section Runs
variable {c : Site} {s t : State}

theorem named_of_allCurrent {reg : Registry} {owner : EntityId → String} {systemId : Option String}
    (ha : c.AllCurrent (c.current systemId) reg owner) : c.Named systemId reg owner :=
  fun e he hof => ⟨(ha e he hof).1,Or.inl (ha e he hof).2⟩

theorem sound_setUp {l : Listing} (h : Sound c s) (hsep : c.Separate s) (hsp : c.Spares s l)
    (ht : c.setUp s l = some t) :
    Sound c t := by
  have hns := namespace_spec h.named hsep
  unfold Site.setUp at ht
  split at ht
  · rename_i r hr
    cases ht
    rw [hr] at hns
    exact ⟨hns,fun hl => absurd rfl hl⟩
  rename_i r₁ hr₁
  rw [hr₁] at hns
  obtain ⟨ha₁,hfrom⟩ := hns
  have hsp₁ : ∀ e ∈ r₁.entries, e.OfEntry c.entryId = true → Listed l.objects e.entityId.domain (s.owner e.entityId) →
      collectUniqueIdRenames c.text (c.identity s.systemId) c.descriptions l.data (c.current s.systemId ++
        s.owner e.entityId) = none := by
    intro e he hof hlisted
    obtain ⟨x,hx,hxof,hid⟩ := hfrom e he hof
    rw [← hid] at hlisted ⊢
    exact hsp x hx hxof hlisted
  have hf := formats_spec ha₁ hsp₁
  split at ht
  · rename_i r hr
    cases ht
    rw [hr] at hf
    exact ⟨named_of_allCurrent hf,fun hl => absurd rfl hl⟩
  · rename_i r₂ hr₂
    rw [hr₂] at hf
    obtain ⟨⟨r,owner⟩,hadd,rfl⟩ := Option.map_eq_some_iff.mp ht
    have ha := allCurrent_addEntities (allCurrent_removeWhere hf _) hadd
    exact ⟨named_of_allCurrent ha,fun _ => ha⟩

theorem sound_validate {v : Validation} {systemId : Option String} (h : Sound c s) (ha : c.Accepts s v)
    (hv : c.validateConnection s.systemId v = some systemId) :
      Sound c { s with systemId := systemId, listed := none } := by
  refine ⟨fun e he hof => ?_,fun hl => absurd rfl hl⟩
  obtain ⟨hplat,hcases⟩ := h.named e he hof
  refine ⟨hplat,?_⟩
  rcases ha systemId hv with hsame | hformer
  · simpa only [Site.current,hsame] using hcases
  · exact Or.inr (hformer e he hof)

theorem sound_step {a : Action} (h : Sound c s) (hk : c.Covers s a) (hstep : c.step s a = some t) : Sound c t := by
  cases a with
  | setUp l => exact sound_setUp h hk.1 hk.2 hstep
  | reauth v =>
    cases hstep
    unfold Site.reauthConfirm
    split
    · exact h
    · rename_i systemId hv
      exact sound_validate h hk hv
  | reconfigure v =>
    cases hstep
    unfold Site.reconfigure
    cases v with
    | none => exact ⟨h.named,fun hl => absurd rfl hl⟩
    | some v =>
      simp only
      split
      · exact h
      · rename_i systemId hv
        exact sound_validate h hk hv

theorem sound_of_reach (hr : c.system.Reach c.Covers s) : Sound c s := by
  refine hr.invariant (fun s hs => ?_) sound_step
  obtain ⟨_,hn,hl⟩ := hs
  exact ⟨hn,fun hne => absurd hl hne⟩

end Runs

/-- After each setup of a run whose flows and setups keep every prefix covered, the entities of
the listed objects have the unique ids that are computed for them. -/
theorem stable_of_reach (c : Site) {s : State} (hr : c.system.Reach c.Covers s) {objects : List (EntityId × String)}
    (hl : s.listed = some objects) : Stable c s objects :=
  stable_of_allCurrent ((sound_of_reach hr).listed (by simp [hl]))

/-- The entry `e1` of the box `box-guid-123`; the names are lowercase already. -/
def nasBox : Site := ⟨⟨id,id⟩,"e1","nas","box-guid-123",[]⟩
def cpuListing (object : String) : Listing := ⟨[],true,["cpu"],["cpu"],[(⟨"sensor",object⟩,"cpu")]⟩

def formerRegistry : Registry := ⟨[⟨⟨"sensor","nas_cpu"⟩,domain,"nas-cpu",some "e1",none,none,none,none⟩],
  by decide,by decide⟩
def beforeIdentity : State := ⟨formerRegistry,none,fun _ => "cpu",none⟩
def afterReauth : State := nasBox.reauthConfirm beforeIdentity ⟨true,true⟩
def afterSetup : State := (nasBox.setUp afterReauth (cpuListing "nas_cpu_2")).get (by decide)

/-- A reauth before the first setup stores the system id while the entity still has the display
name in its unique id. -/
theorem stable_of_reach_former : Stable nasBox afterSetup (cpuListing "nas_cpu_2").objects := by
  have hstart : nasBox.system.Reach nasBox.Covers beforeIdentity := by
    refine .init ⟨Or.inl rfl,?_,rfl⟩
    unfold Site.Named
    decide
  have hreauth : nasBox.system.Reach nasBox.Covers afterReauth := by
    refine hstart.step (a := .reauth ⟨true,true⟩) (fun _ _ => Or.inr ?_) rfl
    decide
  have hsetup : nasBox.system.Reach nasBox.Covers afterSetup := by
    refine hreauth.step (a := .setUp (cpuListing "nas_cpu_2")) ⟨?_,?_⟩ (Option.some_get _).symm
    · unfold Site.Separate
      decide
    · exact fun _ _ _ _ => rfl
  exact stable_of_reach nasBox hsetup (by decide)

/-- The entities of an entry without a system id stay behind when a reauth stores it. -/
theorem not_stable_of_reauth : ¬ ∀ (c : Site) (s : State) (objects : List (EntityId × String)), c.system.Reachable s →
    s.listed = some objects → Stable c s objects := by
  intro hall
  obtain ⟨s,hr,hl,e,he,hof,hlisted,hne⟩ := nasBox.system.exists_reach_of_run (fun _ _ =>
    True) (s := ⟨Registry.empty,none,fun _ => "",none⟩)
    ⟨Or.inl rfl,by unfold Site.Named; decide,rfl⟩ [.setUp (cpuListing "nas_cpu"),.reauth ⟨true,true⟩,
      .setUp (cpuListing "nas_cpu_2")]
    (fun s => s.listed = some (cpuListing "nas_cpu_2").objects ∧ ∃ e ∈ s.registry.entries, e.OfEntry "e1" = true ∧
      Listed (cpuListing "nas_cpu_2").objects e.entityId.domain (s.owner e.entityId) ∧
        e.uniqueId ≠ nasBox.current s.systemId ++ s.owner e.entityId) (by decide)
  exact hne ((hall nasBox s _ hr hl).current e he hof hlisted)

end TruenasCE.Identity
