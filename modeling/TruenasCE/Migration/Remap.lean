import Mathlib.Data.List.Perm.Subperm
import TruenasCE.Migration.Adoption

/-! # The two passes of the remap

`_remap_and_restore` parks the entities that are not on their target under temporary ids
and then settles each on its target. Neither pass raises when the pairs are distinct
registered entities with distinct targets in their own domains; what the second pass does
to the entity ids is the settling of the library.
-/
namespace TruenasCE.Migration
open Library

theorem toString_injective {n m : ℕ} (h : toString n = toString m) : n = m := by
  have hd : Nat.toDigits 10 n = Nat.toDigits 10 m := by
    simpa using congrArg String.toList h
  calc n = Nat.ofDigitChars 10 (Nat.toDigits 10 n) 0 := Nat.ofDigitChars_ten_toDigits.symm
    _ = Nat.ofDigitChars 10 (Nat.toDigits 10 m) 0 := by rw [hd]
    _ = m := Nat.ofDigitChars_ten_toDigits

theorem tempId_injective {d : String} {n m : ℕ} (h : tempId d n = tempId d m) : n = m := by
  have ho : tempObjectPrefix ++ toString n = tempObjectPrefix ++ toString m := congrArg EntityId.object h
  exact toString_injective ((String.append_right_inj _).mp ho)

@[simp] theorem tempId_domain (d : String) (n : ℕ) : (tempId d n).domain = d := rfl
@[simp] theorem tempId_temporary (d : String) (n : ℕ) : (tempId d n).Temporary := ⟨n,rfl⟩

section Temporary
variable {reg : Registry} {d : String}

theorem le_length_of_taken {start n : ℕ} (h : ∀ i < n, reg.get (tempId d (start + i)) ≠ none) :
    n ≤ reg.entries.length := by
  have hnodup : ((List.range n).map (fun i => tempId d (start + i))).Nodup := by
    refine List.Nodup.map_on (fun i _ j _ hij => ?_) List.nodup_range
    have := tempId_injective hij
    omega
  have hsub : (List.range n).map (fun i => tempId d (start + i)) ⊆ reg.entries.map RegistryEntry.entityId := by
    intro id hid
    obtain ⟨i,hi,rfl⟩ := List.mem_map.mp hid
    obtain ⟨e,he⟩ := Option.ne_none_iff_exists'.mp (h i (List.mem_range.mp hi))
    obtain ⟨hmem,heid⟩ := Registry.get_eq_some_iff.mp he
    exact List.mem_map.mpr ⟨e,hmem,heid⟩
  have hle := (List.subperm_of_subset hnodup hsub).length_le
  simpa using hle

theorem tempEntityIdFrom_spec {start : ℕ} (tries counter : ℕ) (hs : start ≤ counter)
    (ht : counter - start + tries = reg.entries.length)
    (hb : ∀ m, start ≤ m → m < counter → reg.get (tempId d m) ≠ none) :
    ∃ n, tempEntityIdFrom reg d tries counter = (tempId d n,n + 1) ∧ start ≤ n ∧ reg.get (tempId d n) = none ∧
      ∀ m, start ≤ m → m < n → reg.get (tempId d m) ≠ none := by
  induction tries generalizing counter with
  | zero =>
    refine ⟨counter,rfl,hs,?_,hb⟩
    by_contra hne
    have htaken : ∀ i < counter - start + 1, reg.get (tempId d (start + i)) ≠ none := by
      intro i hi
      by_cases hi' : start + i = counter
      · rwa [hi']
      · exact hb (start + i) (by omega) (by omega)
    have hle := le_length_of_taken htaken
    omega
  | succ tries ih =>
    unfold tempEntityIdFrom
    by_cases hf : reg.get (tempId d counter) = none
    · exact ⟨counter,by simp [hf],hs,hf,hb⟩
    · have hf' : ¬ (reg.get (tempId d counter)).isNone = true := by simpa using hf
      rw [if_neg hf']
      refine ih (counter + 1) (by omega) (by omega) (fun m hm hlt => ?_)
      by_cases he : m = counter
      · rwa [he]
      · exact hb m hm (by omega)

theorem tempEntityId_spec (reg : Registry) (like : EntityId) (start : ℕ) :
    ∃ n, tempEntityId reg like start = (tempId like.domain n,n + 1) ∧ start ≤ n ∧
      reg.get (tempId like.domain n) = none ∧
      ∀ m, start ≤ m → m < n → reg.get (tempId like.domain m) ≠ none :=
  tempEntityIdFrom_spec reg.entries.length start (Nat.le_refl start) (by simp) (fun m hm hlt => absurd hlt (by omega))

end Temporary
def RegistryEntry.body (e : RegistryEntry) : RegistryEntry := { e with entityId := ⟨e.entityId.domain,""⟩ }

/-- What is registered for a key, apart from the object id. -/
def Registry.body (reg : Registry) (k : Key) : Option RegistryEntry := (reg.find k).map RegistryEntry.body

section Calls
variable {reg : Registry} {id new : EntityId} {k : Key}

theorem rename_spec (hk : reg.getEntityId k = some id) (hd : new.domain = id.domain) (hf : reg.get new = none) :
    ∃ r, reg.rename id new = some r ∧ r.getEntityId = Function.update reg.getEntityId k (some new) ∧ r.body = reg.body ∧
      r.entries.length = reg.entries.length := by
  obtain ⟨e,he,rfl⟩ := Registry.get_of_getEntityId hk
  obtain ⟨r,hr⟩ := Registry.rename_of_free he hd hf
  refine ⟨r,hr,Registry.getEntityId_rename hr hk,?_,Registry.length_rename hr⟩
  obtain ⟨e',he',_,hfind⟩ := Registry.find_rename hr
  obtain rfl : e = e' := Option.some.inj (he.symm.trans he')
  obtain ⟨hmem,hid⟩ := Registry.get_eq_some_iff.mp he
  funext k
  unfold Registry.body
  rw [hfind k]
  split
  · rename_i hk'
    rw [hk',Registry.find_key hmem]
    simp [RegistryEntry.body,hd,hid]
  · rfl

theorem restoreOverrides_spec (hk : reg.getEntityId k = some id) (record : Record) :
    ∃ r, restoreOverrides reg id record = .ok r ∧ r.getEntityId = reg.getEntityId ∧
      ∀ k', r.body k' = if k' = k then (reg.body k').map (fun e => e.apply record.updates) else reg.body k' := by
  obtain ⟨e,he,rfl⟩ := Registry.get_of_getEntityId hk
  have hmem := (Registry.get_eq_some_iff.mp he).1
  unfold restoreOverrides
  split
  · rename_i hu
    refine ⟨reg,rfl,rfl,fun k' => ?_⟩
    rw [hu]
    split
    · cases reg.body k' <;> simp [RegistryEntry.apply]
    · rfl
  · obtain ⟨r,hr,hfind⟩ := Registry.update_of_get he record.updates
    refine ⟨r,by rw [hr]; rfl,funext fun k' => ?_,fun k' => ?_⟩
    · unfold Registry.getEntityId
      rw [hfind k']
      split
      · rename_i hk'
        simp [hk',Registry.find_key hmem]
      · rfl
    · unfold Registry.body
      rw [hfind k']
      split
      · rename_i hk'
        rw [hk',Registry.find_key hmem]
        rfl
      · rfl

end Calls

def Placed (reg : Registry) (key : Record → Key) (ms : List Move) : Prop :=
  ∀ m ∈ ms, reg.getEntityId (key m.record) = some m.current

def parkedIds (reg : Registry) : ℕ → List Move → List EntityId
  | _, [] => []
  | counter, m :: rest =>
    if m.current = m.target then m.current :: parkedIds reg counter rest
    else (tempEntityId reg m.current counter).1 :: parkedIds reg (tempEntityId reg m.current counter).2 rest

/-- What the first pass leaves. -/
structure Parked (reg r : Registry) (key : Record → Key) (ms parked : List Move) : Prop where
  same : parked.map (fun m => (m.target,m.record)) = ms.map (fun m => (m.target,m.record))
  placed : Placed r key parked
  temporary : ∀ m ∈ parked, m.current = m.target ∨ m.current.Temporary
  others : ∀ k, k ∉ ms.map (fun m => key m.record) → r.getEntityId k = reg.getEntityId k
  body : r.body = reg.body

section Park
variable {reg : Registry} {key : Record → Key} {ms : List Move}

theorem park_spec (counter : ℕ) (hp : Placed reg key ms) (hk : (ms.map (fun m => key m.record)).Nodup) :
    ∃ r parked, park reg counter ms = .ok (r,parked) ∧ Parked reg r key ms parked := by
  induction ms generalizing reg counter with
  | nil => exact ⟨reg,[],rfl,rfl,by simp [Placed],by simp,fun _ _ => rfl,rfl⟩
  | cons m rest ih =>
    obtain ⟨hkm,hkr⟩ := List.nodup_cons.mp hk
    have hm : reg.getEntityId (key m.record) = some m.current := hp m (by simp)
    have later : ∀ b ∈ rest, key b.record ≠ key m.record := fun b hb he => hkm (List.mem_map.mpr ⟨b,hb,he⟩)
    unfold park
    split
    · rename_i hct
      obtain ⟨r,parked,hr,h⟩ := ih counter (fun b hb => hp b (by simp [hb])) hkr
      refine ⟨r,m :: parked,by rw [hr]; rfl,by simp [h.same],?_,?_,?_,h.body⟩
      · rintro b hb
        rcases List.mem_cons.mp hb with rfl | hb
        · rw [h.others _ hkm]
          exact hm
        · exact h.placed b hb
      · rintro b hb
        rcases List.mem_cons.mp hb with rfl | hb
        · exact Or.inl hct
        · exact h.temporary b hb
      · intro k hk'
        simp only [List.map_cons,List.mem_cons,not_or] at hk'
        exact h.others k hk'.2
    · obtain ⟨n,ht,_,hfree,_⟩ := tempEntityId_spec reg m.current counter
      obtain ⟨r1,hr1,hplace,hbody,_⟩ := rename_spec hm (tempId_domain m.current.domain n) hfree
      have hp1 : Placed r1 key rest := by
        intro b hb
        rw [hplace,Function.update_of_ne (later b hb)]
        exact hp b (by simp [hb])
      obtain ⟨r,parked,hr,h⟩ := ih (n + 1) hp1 hkr
      refine ⟨r,{ m with current := tempId m.current.domain n } :: parked,?_,
        by simp [h.same],?_,?_,?_,h.body.trans hbody⟩
      · simp only [ht,hr1,hr]
        rfl
      · rintro b hb
        rcases List.mem_cons.mp hb with rfl | hb
        · rw [h.others _ hkm,hplace,Function.update_self]
        · exact h.placed b hb
      · rintro b hb
        rcases List.mem_cons.mp hb with rfl | hb
        · exact Or.inr (tempId_temporary _ n)
        · exact h.temporary b hb
      · intro k hk'
        simp only [List.map_cons,List.mem_cons,not_or] at hk'
        rw [h.others k hk'.2,hplace,Function.update_of_ne hk'.1]

theorem get_rename_eq_none_iff {r : Registry} {id new x : EntityId} {k : Key} (hk : reg.getEntityId k = some id)
    (hr : r.getEntityId = Function.update reg.getEntityId k (some new)) (hid : x ≠ id) (hnew : x ≠ new) :
    r.get x = none ↔ reg.get x = none := by
  rw [Registry.get_eq_none_iff_free,Registry.get_eq_none_iff_free,hr]
  refine forall_congr' (fun k' => ?_)
  by_cases hk' : k' = k
  · subst hk'
    simp [hk,hid.symm,hnew.symm]
  · rw [Function.update_of_ne hk']

theorem tempEntityIdFrom_congr {r : Registry} {d : String} (tries counter : ℕ)
    (h : ∀ n, counter ≤ n → (reg.get (tempId d n) = none ↔ r.get (tempId d n) = none)) :
    tempEntityIdFrom reg d tries counter = tempEntityIdFrom r d tries counter := by
  induction tries generalizing counter with
  | zero => rfl
  | succ tries ih =>
    unfold tempEntityIdFrom
    rw [ih (counter + 1) (fun n hn => h n (by omega))]
    have hc := h counter (Nat.le_refl counter)
    by_cases hf : r.get (tempId d counter) = none
    · simp [hf,hc.mpr hf]
    · have hf' : reg.get (tempId d counter) ≠ none := fun he => hf (hc.mp he)
      simp [hf,hf']

theorem park_currents {before r : Registry} {parked : List Move} {counter : ℕ} (hp : Placed reg key ms)
    (hk : (ms.map (fun m => key m.record)).Nodup) (ht : ∀ m ∈ ms, ¬ m.current.Temporary)
    (hl : reg.entries.length = before.entries.length)
    (hs : ∀ d n, counter ≤ n → (reg.get (tempId d n) = none ↔ before.get (tempId d n) = none))
    (hpark : park reg counter ms = .ok (r,parked)) : parked.map Move.current = parkedIds before counter ms := by
  induction ms generalizing reg counter parked with
  | nil =>
    cases hpark
    rfl
  | cons m rest ih =>
    obtain ⟨hkm,hkr⟩ := List.nodup_cons.mp hk
    have hm : reg.getEntityId (key m.record) = some m.current := hp m (by simp)
    have ht' : ∀ b ∈ rest, ¬ b.current.Temporary := fun b hb => ht b (by simp [hb])
    unfold park at hpark
    unfold parkedIds
    split at hpark
    · rename_i hct
      obtain ⟨p,hrest,hpe⟩ := of_map_ok hpark
      cases hpe
      rw [if_pos hct,List.map_cons,ih (fun b hb => hp b (by simp [hb])) hkr ht' hl hs hrest]
    · rename_i hct
      have htemp : tempEntityId reg m.current counter = tempEntityId before m.current counter := by
        unfold tempEntityId
        rw [hl]
        exact tempEntityIdFrom_congr _ _ (hs m.current.domain)
      obtain ⟨n,hn,hle,hfree,_⟩ := tempEntityId_spec reg m.current counter
      obtain ⟨r1,hr1,hplace,_,hlen⟩ := rename_spec hm (tempId_domain m.current.domain n) hfree
      rw [hn] at hpark
      simp only [hr1] at hpark
      obtain ⟨p,hrest,hpe⟩ := of_map_ok hpark
      cases hpe
      have hp1 : Placed r1 key rest := by
        intro b hb
        rw [hplace,Function.update_of_ne (fun he => hkm (List.mem_map.mpr ⟨b,hb,he⟩))]
        exact hp b (by simp [hb])
      have hs1 : ∀ d k, n + 1 ≤ k → (r1.get (tempId d k) = none ↔ before.get (tempId d k) = none) := by
        intro d k hle'
        have hid : tempId d k ≠ m.current := fun he => ht m (by simp) (he ▸ tempId_temporary d k)
        have hnew : tempId d k ≠ tempId m.current.domain n := by
          intro he
          obtain rfl : d = m.current.domain := congrArg EntityId.domain he
          have := tempId_injective he
          omega
        rw [get_rename_eq_none_iff hm hplace hid hnew]
        exact hs d k (by omega)
      rw [if_neg hct,← htemp,hn,List.map_cons,ih hp1 hkr ht' (hlen.trans hl) hs1 hrest]

end Park
def Outcome.record : Outcome → Record
  | .restored record => record
  | .occupied record _ => record

def moveOf (key : Record → Key) (m : Move) : Key × EntityId := (key m.record,m.target)

/-- What the second pass leaves: settled ids, restored overrides, and an outcome for each
record that tells whether its entity has come to rest on its target. -/
structure Settled (reg r : Registry) (key : Record → Key) (ms : List Move) (outcomes : List Outcome) : Prop where
  place : r.getEntityId = Placement.settle reg.getEntityId (ms.map (moveOf key))
  overrides : ∀ m ∈ ms, r.body (key m.record) = (reg.body (key m.record)).map (fun e => e.apply m.record.updates)
  others : ∀ k, k ∉ ms.map (fun m => key m.record) → r.body k = reg.body k
  outcome : ∀ m ∈ ms, (Outcome.restored m.record ∈ outcomes ∧ r.getEntityId (key m.record) = some m.target) ∨
    (Outcome.occupied m.record m.current ∈ outcomes ∧ r.getEntityId (key m.record) ≠ some m.target)
  records : outcomes.map Outcome.record = ms.map Move.record

section Settle
variable {reg : Registry} {key : Record → Key} {m : Move} {ms : List Move}

theorem settleOne_spec (hm : reg.getEntityId (key m.record) = some m.current)
    (hd : m.target.domain = m.current.domain) :
    ∃ r o, settleOne reg m = .ok (r,o) ∧ r.getEntityId = Placement.settleOne reg.getEntityId (moveOf key m) ∧
      (∀ k, r.body k = if k = key m.record then (reg.body k).map (fun e => e.apply m.record.updates) else reg.body k) ∧
      ((o = .restored m.record ∧ r.getEntityId (key m.record) = some m.target) ∨
        (o = .occupied m.record m.current ∧ r.getEntityId (key m.record) ≠ some m.target)) := by
  unfold settleOne
  split
  · rename_i hct
    obtain ⟨r,hr,hplace,hbody⟩ := restoreOverrides_spec hm m.record
    have hheld : ¬ Placement.Free reg.getEntityId (moveOf key m).2 := fun hf => hf _ (hct ▸ hm)
    refine ⟨r,_,by rw [hr]; rfl,?_,hbody,Or.inl ⟨rfl,?_⟩⟩
    · rw [hplace,Placement.settleOne_of_not_free hheld]
    · rw [hplace,hm,hct]
  rename_i hct
  split
  · rename_i hnone
    have hfree : reg.get m.target = none := by simpa using hnone
    obtain ⟨r1,hr1,hplace1,hbody1,_⟩ := rename_spec hm hd hfree
    have hm1 : r1.getEntityId (key m.record) = some m.target := by rw [hplace1,Function.update_self]
    obtain ⟨r,hr,hplace,hbody⟩ := restoreOverrides_spec hm1 m.record
    refine ⟨r,_,by simp only [hr1,hr]; rfl,?_,?_,Or.inl ⟨rfl,hplace ▸ hm1⟩⟩
    · rw [hplace,hplace1,Placement.settleOne_of_free (Registry.get_eq_none_iff_free.mp hfree)]
      rfl
    · rw [← hbody1]
      exact hbody
  · rename_i hsome
    have hheld : ¬ Placement.Free reg.getEntityId (moveOf key m).2 := by
      rw [← Registry.get_eq_none_iff_free]
      exact fun hn => hsome (Option.isNone_iff_eq_none.mpr hn)
    obtain ⟨r,hr,hplace,hbody⟩ := restoreOverrides_spec hm m.record
    refine ⟨r,_,by rw [hr]; rfl,?_,hbody,Or.inr ⟨rfl,?_⟩⟩
    · rw [hplace,Placement.settleOne_of_not_free hheld]
    · rw [hplace,hm]
      simpa using hct

theorem settle_spec (hp : Placed reg key ms) (hk : (ms.map (fun m => key m.record)).Nodup)
    (hd : ∀ m ∈ ms, m.target.domain = m.current.domain) :
    ∃ r outcomes, settle reg ms = .ok (r,outcomes) ∧ Settled reg r key ms outcomes := by
  induction ms generalizing reg with
  | nil => exact ⟨reg,[],rfl,rfl,by simp,fun _ _ => rfl,by simp,rfl⟩
  | cons m rest ih =>
    obtain ⟨hkm,hkr⟩ := List.nodup_cons.mp hk
    have later : ∀ b ∈ rest, key b.record ≠ key m.record := fun b hb he => hkm (List.mem_map.mpr ⟨b,hb,he⟩)
    obtain ⟨r1,o,hr1,hplace1,hbody1,ho⟩ := settleOne_spec (hp m (by simp)) (hd m (by simp))
    have hp1 : Placed r1 key rest := by
      intro b hb
      rw [hplace1,Placement.settleOne_of_ne (later b hb)]
      exact hp b (by simp [hb])
    obtain ⟨r,outcomes,hr,h⟩ := ih hp1 hkr (fun b hb => hd b (by simp [hb]))
    have hstay : r.getEntityId (key m.record) = r1.getEntityId (key m.record) := by
      rw [h.place,Placement.settle_of_notMem]
      simpa [moveOf] using hkm
    refine ⟨r,o :: outcomes,by simp only [settle,hr1,hr]; rfl,?_,?_,?_,?_,?_⟩
    · rw [h.place,hplace1]
      rfl
    · rintro b hb
      rcases List.mem_cons.mp hb with rfl | hb
      · rw [h.others _ hkm,hbody1,if_pos rfl]
      · rw [h.overrides b hb,hbody1,if_neg (later b hb)]
    · intro k hk'
      simp only [List.map_cons,List.mem_cons,not_or] at hk'
      rw [h.others k hk'.2,hbody1,if_neg hk'.1]
    · rintro b hb
      rcases List.mem_cons.mp hb with rfl | hb
      · rw [hstay]
        rcases ho with ⟨rfl,ho⟩ | ⟨rfl,ho⟩
        · exact Or.inl ⟨by simp,ho⟩
        · exact Or.inr ⟨by simp,ho⟩
      · rcases h.outcome b hb with ⟨hmem,ho⟩ | ⟨hmem,ho⟩
        · exact Or.inl ⟨by simp [hmem],ho⟩
        · exact Or.inr ⟨by simp [hmem],ho⟩
    · rcases ho with ⟨rfl,_⟩ | ⟨rfl,_⟩ <;> simp [Outcome.record,h.records]

end Settle
theorem RegistryEntry.apply_apply (e : RegistryEntry) (u : Updates) : (e.apply u).apply u = e.apply u := by
  rcases u with ⟨_ | _,_ | _,_ | _,_ | _⟩ <;> rfl

theorem RegistryEntry.apply_eq_of_body {e x : RegistryEntry} {u : Updates} (h : e.body = x.body.apply u) :
    e.apply u = e := by
  have hb : (e.apply u).body = e.body := by
    calc (e.apply u).body = e.body.apply u := rfl
      _ = (x.body.apply u).apply u := by rw [h]
      _ = e.body := by rw [RegistryEntry.apply_apply,h]
  have hrest := RegistryEntry.mk.inj hb
  cases e
  simp_all [RegistryEntry.apply]

theorem carries_of_settled {reg r : Registry} {key : Record → Key} {ms : List Move} {outcomes : List Outcome}
    (hs : Settled reg r key ms outcomes) {m : Move} (hm : m ∈ ms) {e : RegistryEntry}
    (he : r.find (key m.record) = some e) :
    e.apply m.record.updates = e := by
  have hbody := hs.overrides m hm
  rw [Registry.body,he,Option.map_some] at hbody
  obtain ⟨x,hx,hxe⟩ := Option.map_eq_some_iff.mp hbody.symm
  obtain ⟨y,_,rfl⟩ := Option.map_eq_some_iff.mp hx
  exact RegistryEntry.apply_eq_of_body hxe.symm

/-- Distinct registered entities that go to distinct ids of their own domains. -/
structure Remappable (reg : Registry) (key : Record → Key) (ms : List Move) : Prop where
  placed : Placed reg key ms
  keys : (ms.map (fun m => key m.record)).Nodup
  targets : (ms.map Move.target).Nodup
  domain : ∀ m ∈ ms, m.target.domain = (key m.record).domain

/-- No target is the temporary id handed to a later pair. -/
def InTurn (reg : Registry) (ms : List Move) : Prop :=
  ((ms.map Move.target).zip (parkedIds reg 0 ms)).Pairwise (fun a b => b.2 ≠ a.1)

instance (reg : Registry) (ms : List Move) : Decidable (InTurn reg ms) :=
  inferInstanceAs (Decidable (List.Pairwise _ _))

section Both
variable {reg mid r : Registry} {key : Record → Key} {ms parked : List Move} {outcomes : List Outcome}

theorem Parked.mem_iff (h : Parked reg mid key ms parked) {target : EntityId} {record : Record} :
    (∃ m ∈ parked, m.target = target ∧ m.record = record) ↔ ∃ m ∈ ms, m.target = target ∧ m.record = record := by
  have hmem : (target,record) ∈ parked.map (fun m => (m.target,m.record)) ↔
      (target,record) ∈ ms.map (fun m => (m.target,m.record)) := by
    rw [h.same]
  simpa only [List.mem_map,Prod.mk.injEq] using hmem

theorem Parked.map_eq (h : Parked reg mid key ms parked) {β : Type*} (f : EntityId → Record → β) :
    parked.map (fun m => f m.target m.record) = ms.map (fun m => f m.target m.record) := by
  have := congrArg (List.map (fun p : EntityId × Record => f p.1 p.2)) h.same
  simpa only [List.map_map,Function.comp_def] using this

theorem Parked.domain (h : Parked reg mid key ms parked) (hd : ∀ m ∈ ms, m.target.domain = (key m.record).domain) :
    ∀ m ∈ parked, m.target.domain = m.current.domain := by
  intro m hm
  obtain ⟨m',hm',ht,hr⟩ := h.mem_iff.mp ⟨m,hm,rfl,rfl⟩
  rw [Registry.domain_of_getEntityId (h.placed m hm),← ht,← hr]
  exact hd m' hm'

theorem remapAndRestore_spec (h : Remappable reg key ms) : ∃ mid r parked outcomes,
    remapAndRestore reg ms = .ok (r,outcomes) ∧ park reg 0 ms = .ok (mid,parked) ∧
      Parked reg mid key ms parked ∧ Settled mid r key parked outcomes := by
  obtain ⟨mid,parked,hpark,hp⟩ := park_spec 0 h.placed h.keys
  have hk : (parked.map (fun m => key m.record)).Nodup := by
    rw [hp.map_eq (fun _ record => key record)]
    exact h.keys
  obtain ⟨r,outcomes,hsettle,hs⟩ := settle_spec hp.placed hk (hp.domain h.domain)
  exact ⟨mid,r,parked,outcomes,by simp only [remapAndRestore,hpark,hsettle],hpark,hp,hs⟩

/-- Everything comes to rest on its target exactly when no target is held by an entity that is
not moved and none is the temporary id of a later pair. -/
theorem settled_iff (h : Remappable reg key ms) (hp : Parked reg mid key ms parked)
    (hs : Settled mid r key parked outcomes) :
    (∀ m ∈ ms, r.getEntityId (key m.record) = some m.target) ↔
      (∀ m ∈ ms, ¬ Placement.HeldOutside reg.getEntityId (ms.map (moveOf key)) m.target) ∧
        parked.Pairwise (fun a b => b.current ≠ a.target) := by
  have hmoves : parked.map (moveOf key) = ms.map (moveOf key) := hp.map_eq (fun target record => (key record,target))
  have hkeys : ((parked.map (moveOf key)).map Prod.fst).Nodup := by
    rw [hmoves,List.map_map]
    exact h.keys
  have htargets : ((parked.map (moveOf key)).map Prod.snd).Nodup := by
    rw [hmoves,List.map_map]
    exact h.targets
  have hiff := Placement.settle_iff mid.apart hkeys htargets
  have hall : (∀ m ∈ parked.map (moveOf key),
    Placement.settle mid.getEntityId (parked.map (moveOf key)) m.1 = some m.2) ↔
      ∀ m ∈ ms, r.getEntityId (key m.record) = some m.target := by
    rw [← hs.place,hmoves]
    simp only [List.forall_mem_map,moveOf]
  have hout : (∀ m ∈ parked.map (moveOf key), ¬ Placement.HeldOutside mid.getEntityId (parked.map (moveOf key)) m.2) ↔
      ∀ m ∈ ms, ¬ Placement.HeldOutside reg.getEntityId (ms.map (moveOf key)) m.target := by
    have hheld : ∀ x, Placement.HeldOutside mid.getEntityId (ms.map (moveOf key)) x ↔
        Placement.HeldOutside reg.getEntityId (ms.map (moveOf key)) x := by
      refine fun x => exists_congr (fun k => and_congr_right (fun hk => ?_))
      rw [hp.others k (by simpa [moveOf] using hk)]
    rw [hmoves]
    simp only [List.forall_mem_map,hheld,moveOf]
  have hpair : (parked.map (moveOf key)).Pairwise (fun a b => mid.getEntityId b.1 ≠ some a.2) ↔
      parked.Pairwise (fun a b => b.current ≠ a.target) := by
    rw [List.pairwise_map]
    refine List.Pairwise.iff_of_mem (fun {a b} _ hb => ?_)
    simp only [moveOf,hp.placed b hb,ne_eq,Option.some.injEq]
  rw [← hall,hiff,hout,hpair]

theorem inTurn_iff (h : Remappable reg key ms) (ht : ∀ m ∈ ms, ¬ m.current.Temporary)
    (hpark : park reg 0 ms = .ok (mid,parked))
    (hp : Parked reg mid key ms parked) : parked.Pairwise (fun a b => b.current ≠ a.target) ↔ InTurn reg ms := by
  have hcur : parked.map Move.current = parkedIds reg 0 ms :=
    park_currents h.placed h.keys ht rfl (fun _ _ _ => Iff.rfl) hpark
  have htar : parked.map Move.target = ms.map Move.target := hp.map_eq (fun target _ => target)
  unfold InTurn
  rw [← hcur,← htar,List.zip_map',List.pairwise_map]

end Both
section Pairs
variable {reg : Registry} {key : Record → Key} {records : List Record}

theorem mem_pairsOf {m : Move} : m ∈ pairsOf reg key records ↔
    m.record ∈ records ∧ reg.getEntityId (key m.record) = some m.current ∧ m.target = m.record.entityId := by
  simp only [pairsOf,List.mem_filterMap,Option.map_eq_some_iff]
  constructor
  · rintro ⟨r,hr,id,hid,rfl⟩
    exact ⟨hr,hid,rfl⟩
  · rintro ⟨hr,hid,ht⟩
    exact ⟨m.record,hr,m.current,hid,by rw [← ht]⟩

theorem sublist_pairsOf {β : Type*} (f : Record → β) :
    ((pairsOf reg key records).map (fun m => f m.record)).Sublist (records.map f) := by
  induction records with
  | nil => exact List.Sublist.refl _
  | cons r rest ih =>
    unfold pairsOf at ih ⊢
    rw [List.filterMap_cons]
    split
    · exact ih.cons _
    · rename_i m hm
      obtain ⟨id,_,rfl⟩ := Option.map_eq_some_iff.mp hm
      exact ih.cons_cons _

theorem targets_pairsOf : (pairsOf reg key records).map Move.target =
    (pairsOf reg key records).map (fun m => m.record.entityId) :=
  List.map_congr_left (fun _ hm => (mem_pairsOf.mp hm).2.2)

/-- Records of distinct entities with distinct ids make a remap that does not raise. -/
theorem remappable_pairsOf (hk : (records.map key).Nodup) (hi : (records.map Record.entityId).Nodup)
    (hd : ∀ r ∈ records, r.entityId.domain = (key r).domain) : Remappable reg key (pairsOf reg key records) where
  placed m hm := (mem_pairsOf.mp hm).2.1
  keys := (sublist_pairsOf key).nodup hk
  targets := by
    rw [targets_pairsOf]
    exact (sublist_pairsOf Record.entityId).nodup hi
  domain m hm := by
    obtain ⟨hr,_,ht⟩ := mem_pairsOf.mp hm
    rw [ht,hd _ hr]

theorem remappable_legacy (reg : Registry) (hd : Distinct records) :
    Remappable reg Record.legacyKey (pairsOf reg Record.legacyKey records) :=
  remappable_pairsOf hd.legacyKeys hd.entityIds hd.domain

end Pairs

end TruenasCE.Migration
