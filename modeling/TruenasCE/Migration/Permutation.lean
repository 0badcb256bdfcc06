import TruenasCE.Migration.Remap

/-! # The remap of an arbitrary list of pairs

`_remap_and_restore` looks at nothing of a record but its overrides, so the entities of a list
of pairs can be told by the ids they are listed with. A permutation of ids goes through unless
a target is the temporary id of a later pair; an entity whose target is held by an entity
outside the list stays on its temporary id.
-/
namespace TruenasCE.Migration
open Library

def Move.plan (m : Move) : EntityId × EntityId × Updates := (m.current,m.target,m.record.updates)

section Plan
variable {a b : Move} {as bs : List Move}

theorem plan_eq_iff : a.plan = b.plan ↔
    a.current = b.current ∧ a.target = b.target ∧ a.record.updates = b.record.updates := by
  simp [Move.plan]

theorem restoreOverrides_congr {x y : Record} (h : x.updates = y.updates) (reg : Registry) (id : EntityId) :
    restoreOverrides reg id x = restoreOverrides reg id y := by
  unfold restoreOverrides
  rw [h]

theorem park_congr (h : as.map Move.plan = bs.map Move.plan) (reg : Registry) (counter : ℕ) :
    (park reg counter as).map (fun p => (p.1,p.2.map Move.plan)) =
      (park reg counter bs).map (fun p => (p.1,p.2.map Move.plan)) := by
  induction as generalizing bs reg counter with
  | nil =>
    obtain rfl : bs = [] := by simpa using h.symm
    rfl
  | cons a as ih =>
    cases bs with
    | nil => simp at h
    | cons b bs =>
      obtain ⟨hab,hrest⟩ := List.cons.inj h
      obtain ⟨hc,ht,hu⟩ := plan_eq_iff.mp hab
      unfold park
      rw [hc,ht]
      split
      · simp only [map_map,List.map_cons,hab]
        exact map_congr_of (ih hrest reg counter) (fun p => (p.1,b.plan :: p.2))
      · cases reg.rename b.current (tempEntityId reg b.current counter).1 with
        | none => rfl
        | some r =>
          simp only [map_map,List.map_cons,Move.plan,hu]
          exact map_congr_of (ih hrest r _)
            (fun p => (p.1,((tempEntityId reg b.current counter).1,b.target,b.record.updates) :: p.2))

theorem settleOne_congr (h : a.plan = b.plan) (reg : Registry) :
    (settleOne reg a).map Prod.fst = (settleOne reg b).map Prod.fst := by
  obtain ⟨hc,ht,hu⟩ := plan_eq_iff.mp h
  unfold settleOne
  rw [hc,ht,restoreOverrides_congr hu]
  split
  · cases restoreOverrides reg b.current b.record <;> rfl
  · split
    · cases reg.rename b.current b.target with
      | none => rfl
      | some r =>
        simp only [restoreOverrides_congr hu]
        cases restoreOverrides r b.target b.record <;> rfl
    · cases restoreOverrides reg b.current b.record <;> rfl

theorem settle_cons_fst (reg : Registry) (m : Move) (rest : List Move) : (settle reg (m :: rest)).map Prod.fst =
    ((settleOne reg m).map Prod.fst).bind (fun r => (settle r rest).map Prod.fst) := by
  rw [settle]
  cases settleOne reg m with
  | error _ => rfl
  | ok p => exact map_map

theorem settle_congr (h : as.map Move.plan = bs.map Move.plan) (reg : Registry) :
    (settle reg as).map Prod.fst = (settle reg bs).map Prod.fst := by
  induction as generalizing bs reg with
  | nil =>
    obtain rfl : bs = [] := by simpa using h.symm
    rfl
  | cons a as ih =>
    cases bs with
    | nil => simp at h
    | cons b bs =>
      obtain ⟨hab,hrest⟩ := List.cons.inj h
      rw [settle_cons_fst,settle_cons_fst,settleOne_congr hab]
      simp only [ih hrest]

theorem remapAndRestore_congr (h : as.map Move.plan = bs.map Move.plan) (reg : Registry) :
    (remapAndRestore reg as).map Prod.fst = (remapAndRestore reg bs).map Prod.fst := by
  have hpark := park_congr h reg 0
  unfold remapAndRestore
  cases ha : park reg 0 as <;> cases hb : park reg 0 bs <;> rw [ha,hb] at hpark
  · rw [Except.error.inj hpark]
  · cases hpark
  · cases hpark
  · obtain ⟨hreg,hplan⟩ := Prod.mk.inj (Except.ok.inj hpark)
    simp only [hreg]
    exact settle_congr hplan _

end Plan

def Move.tagged (m : Move) : Move := { m with record := { m.record with entityId := m.current } }

def Registry.keyAt (reg : Registry) (id : EntityId) : Key := ((reg.get id).map RegistryEntry.key).getD ⟨"","",""⟩

def Registry.taggedKey (reg : Registry) (record : Record) : Key := reg.keyAt record.entityId

/-- The pairs name distinct registered entities. -/
structure Listed (reg : Registry) (ms : List Move) : Prop where
  registered : ∀ m ∈ ms, (reg.get m.current).isSome = true
  currents : (ms.map Move.current).Nodup

def finalId (reg : Registry) (ms : List Move) (m : Move) : Option EntityId :=
  (leaves (remapAndRestore reg ms)).getEntityId (reg.keyAt m.current)

section Tagged
variable {reg : Registry} {ms : List Move}

theorem getEntityId_keyAt {id : EntityId} (h : (reg.get id).isSome = true) :
    reg.getEntityId (reg.keyAt id) = some id := by
  obtain ⟨e,he⟩ := Option.isSome_iff_exists.mp h
  obtain ⟨hmem,rfl⟩ := Registry.get_eq_some_iff.mp he
  simp [Registry.keyAt,he,Registry.getEntityId_of_find (Registry.find_key hmem)]

theorem remapAndRestore_tagged (reg : Registry) (ms : List Move) :
    (remapAndRestore reg (ms.map Move.tagged)).map Prod.fst = (remapAndRestore reg ms).map Prod.fst := by
  refine remapAndRestore_congr ?_ reg
  rw [List.map_map]
  rfl

theorem leaves_tagged (reg : Registry) (ms : List Move) :
    leaves (remapAndRestore reg (ms.map Move.tagged)) = leaves (remapAndRestore reg ms) := by
  have h := remapAndRestore_tagged reg ms
  cases ha : remapAndRestore reg (ms.map Move.tagged) <;> cases hb : remapAndRestore reg ms <;> rw [ha,hb] at h
  · exact Except.error.inj h
  · cases h
  · cases h
  · exact Except.ok.inj h

theorem Listed.placed (h : Listed reg ms) : Placed reg reg.taggedKey (ms.map Move.tagged) := by
  intro m' hm'
  obtain ⟨m,hm,rfl⟩ := List.mem_map.mp hm'
  exact getEntityId_keyAt (h.registered m hm)

theorem Listed.keys (h : Listed reg ms) :
    ((ms.map Move.tagged).map (fun m => reg.taggedKey m.record)).Nodup := by
  rw [List.map_map]
  refine List.Nodup.map_on (fun a ha b hb hab => ?_) (List.Nodup.of_map _ h.currents)
  refine List.inj_on_of_nodup_map h.currents ha hb ?_
  have hid := getEntityId_keyAt (h.registered a ha)
  rw [show reg.keyAt a.current = reg.keyAt b.current from hab,getEntityId_keyAt (h.registered b hb)] at hid
  exact (Option.some.inj hid).symm

end Tagged
/-- A call of `async_update_entity` with `new_entity_id`. -/
structure Assignment where
  before : Registry
  current : EntityId
  new : EntityId

def parkAssignments : Registry → ℕ → List Move → List Assignment
  | _, _, [] => []
  | reg, counter, m :: rest =>
    if m.current = m.target then parkAssignments reg counter rest
    else
      ⟨reg,m.current,(tempEntityId reg m.current counter).1⟩ ::
        match reg.rename m.current (tempEntityId reg m.current counter).1 with
        | none => []
        | some r => parkAssignments r (tempEntityId reg m.current counter).2 rest

def settleOneAssignments (reg : Registry) (m : Move) : List Assignment :=
  if m.current ≠ m.target ∧ (reg.get m.target).isNone then [⟨reg,m.current,m.target⟩] else []

def settleAssignments : Registry → List Move → List Assignment
  | _, [] => []
  | reg, m :: rest =>
    settleOneAssignments reg m ++
      match settleOne reg m with
      | .error _ => []
      | .ok (r,_) => settleAssignments r rest

/-- The calls of `_remap_and_restore` that assign an id. -/
def assignments (reg : Registry) (pairs : List Move) : List Assignment :=
  parkAssignments reg 0 pairs ++
    match park reg 0 pairs with
    | .error _ => []
    | .ok (r,parked) => settleAssignments r parked

/-- The id is not in use when it is assigned. -/
def Assignment.Fresh (a : Assignment) : Prop := a.before.get a.new = none

section Assignments

theorem fresh_of_park (ms : List Move) (reg : Registry) (counter : ℕ) :
    ∀ a ∈ parkAssignments reg counter ms, a.Fresh := by
  induction ms generalizing reg counter with
  | nil => simp [parkAssignments]
  | cons m rest ih =>
    intro a ha
    unfold parkAssignments at ha
    split at ha
    · exact ih reg counter a ha
    · rcases List.mem_cons.mp ha with rfl | ha
      · obtain ⟨n,hn,_,hfree,_⟩ := tempEntityId_spec reg m.current counter
        unfold Assignment.Fresh
        rwa [hn]
      · split at ha
        · cases ha
        · rename_i r _
          exact ih r _ a ha

theorem fresh_of_settle (ms : List Move) (reg : Registry) : ∀ a ∈ settleAssignments reg ms, a.Fresh := by
  induction ms generalizing reg with
  | nil => simp [settleAssignments]
  | cons m rest ih =>
    intro a ha
    rcases List.mem_append.mp ha with ha | ha
    · unfold settleOneAssignments at ha
      split at ha
      · rename_i hcond
        obtain rfl := List.mem_singleton.mp ha
        exact Option.isNone_iff_eq_none.mp hcond.2
      · cases ha
    · split at ha
      · cases ha
      · rename_i r _ _
        exact ih r a ha

/-- Whatever the pairs are, no id in use is assigned. -/
theorem fresh_of_mem (reg : Registry) (ms : List Move) : ∀ a ∈ assignments reg ms, a.Fresh := by
  intro a ha
  rcases List.mem_append.mp ha with ha | ha
  · exact fresh_of_park ms reg 0 a ha
  · split at ha
    · cases ha
    · rename_i r parked _
      exact fresh_of_settle parked r a ha

theorem getEntityId_restoreOverrides (reg : Registry) (id : EntityId) (record : Record) :
    Post (fun r => r = reg) (fun r => r.getEntityId = reg.getEntityId) (restoreOverrides reg id record) := by
  unfold restoreOverrides
  split
  · exact rfl
  · cases h : reg.update id record.updates with
    | none => exact rfl
    | some r =>
      obtain ⟨e,he,hfind⟩ := Registry.find_update h
      refine funext fun k => ?_
      unfold Registry.getEntityId
      rw [hfind k]
      split
      · rename_i hk
        rw [hk,Registry.find_key (Registry.get_eq_some_iff.mp he).1]
        rfl
      · rfl

theorem getEntityId_of_rename {reg r : Registry} {id new : EntityId} (h : reg.rename id new = some r) {k : Key}
    {x : EntityId} (hx : r.getEntityId k = some x) : reg.getEntityId k = some x ∨ x = new := by
  obtain ⟨e,_,_,hfind⟩ := Registry.find_rename h
  unfold Registry.getEntityId at hx
  rw [hfind k] at hx
  split at hx
  · exact Or.inr (Option.some.inj hx).symm
  · exact Or.inl hx

def Traced (reg : Registry) (as : List Assignment) (r : Registry) : Prop :=
  ∀ k x, r.getEntityId k = some x → reg.getEntityId k = some x ∨ ∃ a ∈ as, a.new = x

theorem Traced.of_eq {reg r : Registry} (h : r.getEntityId = reg.getEntityId) (as : List Assignment) : Traced reg as r :=
  fun _ _ hx => Or.inl (h ▸ hx)

theorem Traced.trans {reg mid r : Registry} {as bs : List Assignment} (h : Traced reg as mid) (h' : Traced mid bs r) :
    Traced reg (as ++ bs) r := by
  intro k x hx
  rcases h' k x hx with hmid | ⟨a,ha,hax⟩
  · rcases h k x hmid with hreg | ⟨a,ha,hax⟩
    · exact Or.inl hreg
    · exact Or.inr ⟨a,List.mem_append_left _ ha,hax⟩
  · exact Or.inr ⟨a,List.mem_append_right _ ha,hax⟩

theorem Traced.of_rename {reg r : Registry} {id new : EntityId} (h : reg.rename id new = some r) :
    Traced reg [⟨reg,id,new⟩] r := by
  intro k x hx
  rcases getEntityId_of_rename h hx with hreg | rfl
  · exact Or.inl hreg
  · exact Or.inr ⟨_,List.mem_singleton_self _,rfl⟩

theorem traced_park (ms : List Move) (reg : Registry) (counter : ℕ) :
    Post (Traced reg (parkAssignments reg counter ms)) (fun p => Traced reg (parkAssignments reg counter ms) p.1)
      (park reg counter ms) := by
  induction ms generalizing reg counter with
  | nil => exact Traced.of_eq rfl _
  | cons m rest ih =>
    unfold park parkAssignments
    split
    · refine Post.map ?_
      exact ih reg counter
    · cases hr : reg.rename m.current (tempEntityId reg m.current counter).1 with
      | none => exact Traced.of_eq rfl _
      | some r =>
        have hone := Traced.of_rename hr
        refine Post.map ((ih r _).imp (fun _ h => hone.trans h) (fun _ h => hone.trans h))

theorem traced_restoreOverrides {reg r : Registry} {as : List Assignment} (h : Traced reg as r) (id : EntityId)
    (record : Record) : Post (Traced reg as) (Traced reg as) (restoreOverrides r id record) := by
  refine (getEntityId_restoreOverrides r id record).imp (fun r' hr' => hr' ▸ h) (fun r' hr' k x hx => ?_)
  rw [hr'] at hx
  exact h k x hx

theorem traced_settleOne (reg : Registry) (m : Move) : Post (Traced reg (settleOneAssignments reg m))
    (fun p => Traced reg (settleOneAssignments reg m) p.1) (settleOne reg m) := by
  have hsame : Traced reg (settleOneAssignments reg m) reg := Traced.of_eq rfl _
  unfold settleOne
  split
  · exact Post.map (traced_restoreOverrides hsame _ _)
  · rename_i hct
    split
    · rename_i hfree
      cases hr : reg.rename m.current m.target with
      | none => exact hsame
      | some r =>
        have hone : Traced reg (settleOneAssignments reg m) r := by
          unfold settleOneAssignments
          rw [if_pos ⟨hct,hfree⟩]
          exact Traced.of_rename hr
        exact Post.map (traced_restoreOverrides hone _ _)
    · exact Post.map (traced_restoreOverrides hsame _ _)

theorem traced_settle (ms : List Move) (reg : Registry) : Post (Traced reg (settleAssignments reg ms))
    (fun p => Traced reg (settleAssignments reg ms) p.1) (settle reg ms) := by
  induction ms generalizing reg with
  | nil => exact Traced.of_eq rfl _
  | cons m rest ih =>
    have hone := traced_settleOne reg m
    unfold settle settleAssignments
    cases h : settleOne reg m with
    | error r =>
      rw [h] at hone
      exact hone.trans (Traced.of_eq rfl [])
    | ok p =>
      rw [h] at hone
      exact Post.map ((ih p.1).imp (fun _ h => hone.trans h) (fun _ h => hone.trans h))

theorem traced_remap (reg : Registry) (ms : List Move) :
    Traced reg (assignments reg ms) (leaves (remapAndRestore reg ms)) := by
  have hpark := traced_park ms reg 0
  unfold remapAndRestore assignments
  cases h : park reg 0 ms with
  | error r =>
    rw [h] at hpark
    exact hpark.trans (Traced.of_eq rfl [])
  | ok p =>
    rw [h] at hpark
    have hsettle := traced_settle p.2 p.1
    cases hs : settle p.1 p.2 with
    | error r =>
      rw [hs] at hsettle
      simpa [leaves,hs] using hpark.trans hsettle
    | ok q =>
      rw [hs] at hsettle
      simpa [leaves,hs] using hpark.trans hsettle

end Assignments
/-- Distinct registered entities that go to distinct ids of their domains, none of them held by
an entity outside the list, and no temporary id is registered. -/
structure Permutable (reg : Registry) (ms : List Move) : Prop where
  listed : Listed reg ms
  targets : (ms.map Move.target).Nodup
  domain : ∀ m ∈ ms, m.target.domain = m.current.domain
  inside : ∀ e ∈ reg.entries, e.entityId ∈ ms.map Move.target → e.entityId ∈ ms.map Move.current
  temporary : ∀ e ∈ reg.entries, ¬ e.entityId.Temporary

/-- The remap returns with every listed entity under its target and every other entity
unchanged, and no call assigned an id that was in use; the calls account for all ids that change. -/
structure Remapped (reg : Registry) (ms : List Move) : Prop where
  returns : ∃ r outcomes, remapAndRestore reg ms = .ok (r,outcomes)
  listed : ∀ m ∈ ms, finalId reg ms m = some m.target
  others : ∀ k, k ∉ ms.map (fun m => reg.keyAt m.current) → (leaves (remapAndRestore reg ms)).find k = reg.find k
  fresh : ∀ a ∈ assignments reg ms, a.Fresh
  traced : Traced reg (assignments reg ms) (leaves (remapAndRestore reg ms))

def numberedIds : ℕ → List Move → List EntityId
  | _, [] => []
  | counter, m :: rest =>
    if m.current = m.target then m.current :: numberedIds counter rest
    else tempId m.current.domain counter :: numberedIds (counter + 1) rest

/-- No target is the temporary id of a later pair. -/
def Untangled (ms : List Move) : Prop :=
  ((ms.map Move.target).zip (numberedIds 0 ms)).Pairwise (fun a b => b.2 ≠ a.1)

instance (ms : List Move) : Decidable (Untangled ms) := inferInstanceAs (Decidable (List.Pairwise _ _))

section Permutation
variable {reg : Registry} {ms : List Move}

theorem Registry.find_congr {r : Registry} {k : Key} (hid : r.getEntityId k = reg.getEntityId k)
    (hbody : r.body k = reg.body k) : r.find k = reg.find k := by
  unfold Registry.getEntityId at hid
  unfold Registry.body at hbody
  cases hr : r.find k with
  | none =>
    cases hx : reg.find k with
    | none => rfl
    | some x => simp [hr,hx] at hid
  | some e =>
    cases hx : reg.find k with
    | none => simp [hr,hx] at hid
    | some x =>
      rw [hr,hx] at hid hbody
      have hi : e.entityId = x.entityId := Option.some.inj hid
      have hb : e.body = x.body := Option.some.inj hbody
      have hrest := RegistryEntry.mk.inj hb
      cases e
      cases x
      simp_all

theorem Registry.get_tempId (h : ∀ e ∈ reg.entries, ¬ e.entityId.Temporary) (d : String) (n : ℕ) :
    reg.get (tempId d n) = none :=
  Registry.get_eq_none_iff.mpr (fun e he hid => h e he (hid ▸ tempId_temporary d n))

theorem tempEntityId_of_unused (h : ∀ e ∈ reg.entries, ¬ e.entityId.Temporary) (like : EntityId) (counter : ℕ) :
    tempEntityId reg like counter = (tempId like.domain counter,counter + 1) := by
  obtain ⟨n,hn,hle,_,hbelow⟩ := tempEntityId_spec reg like counter
  obtain rfl : n = counter := by
    by_contra hne
    exact hbelow counter (Nat.le_refl counter) (by omega) (Registry.get_tempId h _ _)
  exact hn

theorem parkedIds_tagged (h : ∀ e ∈ reg.entries, ¬ e.entityId.Temporary) (counter : ℕ) :
    parkedIds reg counter (ms.map Move.tagged) = numberedIds counter ms := by
  induction ms generalizing counter with
  | nil => rfl
  | cons m rest ih =>
    have ht : tempEntityId reg m.tagged.current counter = (tempId m.current.domain counter,counter + 1) :=
      tempEntityId_of_unused h m.current counter
    rw [List.map_cons,parkedIds,numberedIds,ht]
    split
    · rw [if_pos (by assumption),ih]
      rfl
    · rw [if_neg (by assumption),ih]

theorem inTurn_tagged (h : ∀ e ∈ reg.entries, ¬ e.entityId.Temporary) :
    InTurn reg (ms.map Move.tagged) ↔ Untangled ms := by
  unfold InTurn Untangled
  rw [parkedIds_tagged h,List.map_map]
  rfl

theorem Permutable.remappable (h : Permutable reg ms) : Remappable reg reg.taggedKey (ms.map Move.tagged) where
  placed := h.listed.placed
  keys := h.listed.keys
  targets := by
    rw [List.map_map]
    exact h.targets
  domain := by
    intro m' hm'
    obtain ⟨m,hm,rfl⟩ := List.mem_map.mp hm'
    rw [← Registry.domain_of_getEntityId (h.listed.placed _ hm')]
    exact h.domain m hm

theorem Permutable.not_heldOutside (h : Permutable reg ms) {m : Move} (hm : m ∈ ms) :
    ¬ Placement.HeldOutside reg.getEntityId ((ms.map Move.tagged).map (moveOf reg.taggedKey)) m.target := by
  rintro ⟨k,hk,hid⟩
  obtain ⟨e,he,rfl,het⟩ := Registry.getEntityId_eq_some_iff.mp hid
  obtain ⟨b,hb,hbe⟩ := List.mem_map.mp (h.inside e he (het ▸ List.mem_map_of_mem hm))
  refine hk ?_
  have hkey : reg.keyAt b.current = e.key := by
    rw [hbe]
    simp [Registry.keyAt,Registry.get_eq_some_iff.mpr ⟨he,rfl⟩]
  simp only [List.map_map,List.mem_map,Function.comp_apply]
  exact ⟨b,hb,hkey⟩

theorem Permutable.not_temporary (h : Permutable reg ms) : ∀ m ∈ ms.map Move.tagged, ¬ m.current.Temporary := by
  intro m' hm'
  obtain ⟨m,hm,rfl⟩ := List.mem_map.mp hm'
  obtain ⟨e,he⟩ := Option.isSome_iff_exists.mp (h.listed.registered m hm)
  obtain ⟨hmem,hid⟩ := Registry.get_eq_some_iff.mp he
  exact hid ▸ h.temporary e hmem

/-- A permutation of entity ids goes through exactly when no target is the temporary id of a
later pair. -/
theorem remapped_iff (h : Permutable reg ms) : Remapped reg ms ↔ Untangled ms := by
  obtain ⟨mid,r,parked,outcomes,hrun,hpark,hp,hs⟩ := remapAndRestore_spec h.remappable
  have hleaves : leaves (remapAndRestore reg ms) = r := by
    rw [← leaves_tagged,hrun]
    rfl
  have hall : (∀ m ∈ ms, finalId reg ms m = some m.target) ↔ Untangled ms := by
    have hsettled := settled_iff h.remappable hp hs
    rw [inTurn_iff h.remappable h.not_temporary hpark hp,inTurn_tagged h.temporary] at hsettled
    simp only [List.forall_mem_map] at hsettled
    unfold finalId
    rw [hleaves]
    refine hsettled.trans (and_iff_right ?_)
    exact fun m hm => h.not_heldOutside (m := m) hm
  refine ⟨fun hr => hall.mp hr.listed,fun hu => ⟨?_,hall.mpr hu,fun k hk => ?_,fresh_of_mem reg ms,
    traced_remap reg ms⟩⟩
  · have hfst := remapAndRestore_tagged reg ms
    rw [hrun] at hfst
    obtain ⟨p,hok,_⟩ := of_map_ok hfst.symm
    exact ⟨p.1,p.2,hok⟩
  · rw [hleaves]
    have hk' : k ∉ (ms.map Move.tagged).map (fun m => reg.taggedKey m.record) := by
      rwa [List.map_map]
    have hkp : k ∉ parked.map (fun m => reg.taggedKey m.record) := by
      rwa [hp.map_eq (fun _ record => reg.taggedKey record)]
    refine Registry.find_congr ?_ ?_
    · rw [hs.place,Placement.settle_of_notMem,hp.others k hk']
      rw [List.map_map]
      exact hkp
    · rw [hs.others k hkp,hp.body]

end Permutation

def listedEntry (object uniqueId : String) : RegistryEntry :=
  ⟨⟨"sensor",object⟩,"truenas_ce",uniqueId,some "ce",none,none,none,none⟩

def plainRecord : Record := ⟨"","sensor",⟨"sensor",""⟩,none,none,none,false,none⟩

def pairOf (current target : String) : Move := ⟨⟨"sensor",current⟩,⟨"sensor",target⟩,plainRecord⟩

def disks : Registry := ⟨[listedEntry "sda" "a",listedEntry "sdb" "b",listedEntry "sdc" "c"],by decide,by decide⟩

theorem mem_disks {e : RegistryEntry} (he : e ∈ disks.entries) : ¬ e.entityId.Temporary := by
  rintro ⟨n,hn⟩
  have ho : e.entityId.object = tempObjectPrefix ++ toString n := congrArg EntityId.object hn
  have hlong : tempObjectPrefix.length ≤ e.entityId.object.length := by
    rw [ho,String.length_append]
    exact Nat.le_add_right _ _
  have hshort : ∀ e ∈ disks.entries, e.entityId.object.length < tempObjectPrefix.length := by decide
  exact absurd hlong (Nat.not_le.mpr (hshort e he))

/-- Three disks in a cycle. -/
theorem remapped_iff_cycle : Remapped disks [pairOf "sda" "sdb",pairOf "sdb" "sdc",pairOf "sdc" "sda"] ↔
    Untangled [pairOf "sda" "sdb",pairOf "sdb" "sdc",pairOf "sdc" "sda"] :=
  remapped_iff ⟨⟨by decide,by decide⟩,by decide,by decide,by decide,fun _ => mem_disks⟩

/-- The first pass parks `sdb` under the target of `sda`. -/
theorem not_remapped_of_temporary_target : ¬ ∀ reg ms, Permutable reg ms → Remapped reg ms := by
  intro hall
  have h := hall disks [pairOf "sda" "truenas_ce_mig_1",pairOf "sdb" "sdd"]
    ⟨⟨by decide,by decide⟩,by decide,by decide,by decide,fun _ => mem_disks⟩
  have hid : finalId disks [pairOf "sda" "truenas_ce_mig_1",pairOf "sdb" "sdd"] (pairOf "sda" "truenas_ce_mig_1") =
    some ⟨"sensor","truenas_ce_mig_0"⟩ := by decide
  have := hid.symm.trans (h.listed _ (by simp))
  exact absurd this (by decide)

/-- The target of the pair is held by an entity outside the list. -/
def Blocked (reg : Registry) (ms : List Move) (m : Move) : Prop :=
  (reg.get m.target).isSome = true ∧ m.target ∉ ms.map Move.current

/-- Every blocked entity ends under the id it had, unless another listed entity took that id as
its target, and no listed entity ends under a temporary id. -/
structure LeftInPlace (reg : Registry) (ms : List Move) : Prop where
  inPlace : ∀ m ∈ ms, Blocked reg ms m → finalId reg ms m = some m.current ∨
    ∃ b ∈ ms, b ≠ m ∧ b.target = m.current ∧ finalId reg ms b = some m.current
  notTemporary : ∀ m ∈ ms, ∀ id, finalId reg ms m = some id → ¬ id.Temporary

section Block
variable {reg : Registry} {key : Record → Key} {ms : List Move} {m : Move}

theorem settleOne_frame (hm : reg.getEntityId (key m.record) = some m.current) :
    Post (fun r => ∀ k, k ≠ key m.record → r.getEntityId k = reg.getEntityId k)
      (fun p => ∀ k, k ≠ key m.record → p.1.getEntityId k = reg.getEntityId k) (settleOne reg m) := by
  have same : ∀ r : Registry, r.getEntityId = reg.getEntityId →
    ∀ k, k ≠ key m.record → r.getEntityId k = reg.getEntityId k := fun r hr k _ => congrFun hr k
  have stays := fun r id => getEntityId_restoreOverrides r id m.record
  unfold settleOne
  split
  · exact Post.map ((stays reg _).imp (fun r hr => same r (congrArg _ hr)) same)
  · split
    · cases hr : reg.rename m.current m.target with
      | none => exact fun _ _ => rfl
      | some r =>
        have hplace := Registry.getEntityId_rename hr hm
        have hone : ∀ k, k ≠ key m.record → r.getEntityId k = reg.getEntityId k := fun k hk => by
          rw [hplace,Function.update_of_ne hk]
        refine Post.map ((stays r _).imp (fun r' hr' => hr' ▸ hone) (fun r' hr' k hk => ?_))
        rw [hr',hone k hk]
    · exact Post.map ((stays reg _).imp (fun r hr => same r (congrArg _ hr)) same)

theorem settleOne_held (hct : m.current ≠ m.target) (hheld : reg.get m.target ≠ none) :
    Post (fun r => r.getEntityId = reg.getEntityId) (fun p => p.1.getEntityId = reg.getEntityId) (settleOne reg m) := by
  unfold settleOne
  rw [if_neg hct,if_neg (by simpa using hheld)]
  exact Post.map ((getEntityId_restoreOverrides reg _ _).imp (fun _ hr => congrArg _ hr) (fun _ hr => hr))

theorem settle_frame (hp : Placed reg key ms) (hk : (ms.map (fun m => key m.record)).Nodup) {k : Key}
    (hkm : k ∉ ms.map (fun m => key m.record)) :
    Post (fun r => r.getEntityId k = reg.getEntityId k) (fun p => p.1.getEntityId k = reg.getEntityId k)
      (settle reg ms) := by
  induction ms generalizing reg with
  | nil => exact rfl
  | cons m rest ih =>
    obtain ⟨hkr,hknd⟩ := List.nodup_cons.mp hk
    simp only [List.map_cons,List.mem_cons,not_or] at hkm
    have hone := settleOne_frame (hp m (by simp))
    unfold settle
    cases h : settleOne reg m with
    | error r =>
      rw [h] at hone
      exact hone k hkm.1
    | ok p =>
      rw [h] at hone
      have hp1 : Placed p.1 key rest := by
        intro b hb
        rw [hone _ (fun he => hkr (List.mem_map.mpr ⟨b,hb,he⟩))]
        exact hp b (by simp [hb])
      have hrest := ih hp1 hknd hkm.2
      exact Post.map (hrest.imp (fun r hr => hr.trans (hone k hkm.1)) (fun r hr => hr.trans (hone k hkm.1)))

theorem settle_held (hp : Placed reg key ms) (hk : (ms.map (fun m => key m.record)).Nodup) (hm : m ∈ ms) {k : Key}
    (hkm : k ∉ ms.map (fun m => key m.record)) (hheld : reg.getEntityId k = some m.target) :
    Post (fun r => r.getEntityId (key m.record) = some m.current)
      (fun p => p.1.getEntityId (key m.record) = some m.current) (settle reg ms) := by
  induction ms generalizing reg with
  | nil => simp at hm
  | cons a rest ih =>
    obtain ⟨hkr,hknd⟩ := List.nodup_cons.mp hk
    simp only [List.map_cons,List.mem_cons,not_or] at hkm
    have ha := hp a (by simp)
    have hone := settleOne_frame ha
    have later : ∀ b ∈ rest, key b.record ≠ key a.record := fun b hb he => hkr (List.mem_map.mpr ⟨b,hb,he⟩)
    unfold settle
    rcases List.mem_cons.mp hm with rfl | hm
    · have hct : m.current ≠ m.target := by
        intro he
        exact hkm.1 (reg.apart _ _ _ hheld (he ▸ ha))
      have hget : reg.get m.target ≠ none := fun hn => Registry.get_eq_none_iff_free.mp hn k hheld
      have hstay := settleOne_held hct hget
      cases h : settleOne reg m with
      | error r =>
        rw [h] at hstay
        exact (congrFun hstay _).trans ha
      | ok p =>
        rw [h] at hone hstay
        have hp1 : Placed p.1 key rest := fun b hb => (hone _ (later b hb)).trans (hp b (by simp [hb]))
        have hend : p.1.getEntityId (key m.record) = some m.current := (congrFun hstay _).trans ha
        exact Post.map ((settle_frame hp1 hknd hkr).imp (fun r hr => hr.trans hend) (fun r hr => hr.trans hend))
    · cases h : settleOne reg a with
      | error r =>
        rw [h] at hone
        exact (hone _ (later m hm)).trans (hp m (by simp [hm]))
      | ok p =>
        rw [h] at hone
        have hp1 : Placed p.1 key rest := fun b hb => (hone _ (later b hb)).trans (hp b (by simp [hb]))
        exact Post.map (ih hp1 hknd hm hkm.2 ((hone k hkm.1).trans hheld))

theorem temporary_of_blocked (h : Listed reg ms) (hm : m ∈ ms) (hb : Blocked reg ms m) :
    ∃ id, finalId reg ms m = some id ∧ id.Temporary := by
  obtain ⟨mid,parked,hpark,hp⟩ := park_spec 0 h.placed h.keys
  obtain ⟨e,he⟩ := Option.isSome_iff_exists.mp hb.1
  obtain ⟨hmem,het⟩ := Registry.get_eq_some_iff.mp he
  have hk : e.key ∉ (ms.map Move.tagged).map (fun m => reg.taggedKey m.record) := by
    intro hek
    simp only [List.map_map,List.mem_map,Function.comp_apply] at hek
    obtain ⟨b,hbm,hbk⟩ := hek
    have hid := getEntityId_keyAt (h.registered b hbm)
    rw [show reg.keyAt b.current = e.key from hbk,Registry.getEntityId_of_find (Registry.find_key hmem)] at hid
    exact hb.2 (List.mem_map.mpr ⟨b,hbm,(Option.some.inj hid).symm.trans het⟩)
  have hheld : mid.getEntityId e.key = some m.target := by
    rw [hp.others _ hk,Registry.getEntityId_of_find (Registry.find_key hmem),het]
  obtain ⟨p,hpm,ht,hr⟩ := hp.mem_iff.mpr ⟨m.tagged,List.mem_map_of_mem hm,rfl,rfl⟩
  have hkp : e.key ∉ parked.map (fun m => reg.taggedKey m.record) := by
    rwa [hp.map_eq (fun _ record => reg.taggedKey record)]
  have hkeys : (parked.map (fun m => reg.taggedKey m.record)).Nodup := by
    rw [hp.map_eq (fun _ record => reg.taggedKey record)]
    exact h.keys
  have hpt : mid.getEntityId e.key = some p.target := by
    rw [hheld,ht]
    rfl
  refine ⟨p.current,?_,(hp.temporary p hpm).resolve_left (fun hct => ?_)⟩
  · have hend := settle_held hp.placed hkeys hpm hkp hpt
    have hkey : reg.taggedKey p.record = reg.keyAt m.current := by rw [hr]; rfl
    unfold finalId
    rw [← leaves_tagged]
    unfold remapAndRestore
    rw [hpark,← hkey]
    exact Post.leaves hend
  · have hat := hp.placed p hpm
    rw [hct] at hat
    exact hkp (mid.apart _ _ _ hpt hat ▸ List.mem_map_of_mem hpm)

end Block

/-- With a blocked target, no remap leaves the entities in place. -/
theorem not_leftInPlace {reg : Registry} {ms : List Move} (h : Listed reg ms) (hb : ∃ m ∈ ms, Blocked reg ms m) :
    ¬ LeftInPlace reg ms := by
  obtain ⟨m,hm,hb⟩ := hb
  obtain ⟨id,hid,htemp⟩ := temporary_of_blocked h hm hb
  exact fun hl => hl.notTemporary m hm id hid htemp

/-- The target of `sda` is held by `sdc`. -/
theorem not_leftInPlace_sdc : ¬ LeftInPlace disks [pairOf "sda" "sdc"] :=
  not_leftInPlace ⟨by decide,by decide⟩ ⟨pairOf "sda" "sdc",by decide,by decide,by decide⟩

theorem not_leftInPlace_of_blocked : ¬ ∀ reg ms, Listed reg ms → LeftInPlace reg ms := by
  intro hall
  have hid : finalId disks [pairOf "sda" "sdc"] (pairOf "sda" "sdc") = some (tempId "sensor" 0) := by decide
  exact (hall disks [pairOf "sda" "sdc"] ⟨by decide,by decide⟩).notTemporary _ (by simp) _ hid (tempId_temporary _ _)

end TruenasCE.Migration
