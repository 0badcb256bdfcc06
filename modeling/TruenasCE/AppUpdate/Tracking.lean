import TruenasCE.AppUpdate.Frame

/-! # Upgrade job ids between `app.upgrade` and the job's end

A job id is pending from the moment `app.upgrade` returns it until a lookup reports
the job missing or ended. It stays in the published row along every run in which
the install writes into that row and no pending app leaves the listing and comes
back; a publication that lands while `app.upgrade` is awaited loses it.
-/
namespace TruenasCE.AppUpdate
open Library

def Event.updatePending : Event → List (Uid × JobId) → List (Uid × JobId)
  | .upgraded uid job, jobs => (uid,job) :: jobs
  | .reported k r, jobs => if r.Ends then jobs.filter (fun p => p.2 ≠ k) else jobs
  | _, jobs => jobs

/-- The jobs `app.upgrade` has returned that no lookup has reported missing or ended
since; the history is read from its oldest event on. -/
def pendingJobs (log : List Event) : List (Uid × JobId) := log.foldr Event.updatePending []

section Pending
variable {p : Uid × JobId} {log es : List Event} {e : Event}

theorem updatePending_subset {jobs : List (Uid × JobId)} (he : e.Quiet) (h : p ∈ e.updatePending jobs) :
    p ∈ jobs := by
  cases e with
  | upgraded u k => exact he.elim
  | reported k r =>
    have hf : p ∈ if r.Ends then jobs.filter (fun q => q.2 ≠ k) else jobs := h
    split at hf
    · exact List.mem_of_mem_filter hf
    · exact hf
  | _ => exact h

theorem pending_of_append (he : ∀ e ∈ es, ∀ jobs, p ∈ e.updatePending jobs → p ∈ jobs)
    (h : p ∈ pendingJobs (es ++ log)) : p ∈ pendingJobs log := by
  induction es with
  | nil => exact h
  | cons e es ih =>
    exact ih (fun x hx => he x (List.mem_cons_of_mem _ hx)) (he e List.mem_cons_self _ h)

theorem pending_of_quiet (he : ∀ e ∈ es, e.Quiet) (h : p ∈ pendingJobs (es ++ log)) : p ∈ pendingJobs log :=
  pending_of_append (fun e hm _ => updatePending_subset (he e hm)) h

theorem ne_of_pending_reported {k : JobId} {r : Report} (hr : r.Ends)
    (h : p ∈ pendingJobs (.reported k r :: log)) : p.2 ≠ k := by
  have hf : p ∈ if r.Ends then (pendingJobs log).filter (fun q => q.2 ≠ k) else pendingJobs log := h
  rw [if_pos hr] at hf
  simpa using (List.mem_filter.mp hf).2

end Pending

/-- Every pending job of a listed app is the one its published row tracks. -/
def NoLostJob (s : State) : Prop :=
  ∀ p ∈ pendingJobs s.log, (s.app p.1).isSome = true → s.tracked p.1 = some p.2

instance (s : State) : Decidable (NoLostJob s) :=
  inferInstanceAs (Decidable (∀ p ∈ pendingJobs s.log, (s.app p.1).isSome = true → s.tracked p.1 = some p.2))

/-- The id of `job` reaches the published row: no other job of the app is pending, and
a listed app's row is the one `_data` refers to or has `job` already. -/
def LandsPublished (s : State) (entity : Entity) (job : JobId) : Prop :=
  (∀ p ∈ pendingJobs s.log, p.1 = entity.uid → p.2 = job) ∧
  ((s.app entity.uid).isSome = true → s.data entity = .row s.gen ∨ s.tracked entity.uid = some job)

instance (s : State) (entity : Entity) (job : JobId) : Decidable (LandsPublished s entity job) :=
  inferInstanceAs (Decidable (_ ∧ _))

/-- The condition on a step: what `app.upgrade` returns lands in the published row, and
no publication lists an app again that has a pending job. -/
def KeepsJobs (s : State) : Action → Prop
  | .upgradeAnswer n =>
    match s.tasks.get n with
    | some (.install entity (.upgrading (some job))) => LandsPublished s entity job
    | _ => True
  | .appsAnswer listing =>
    ∀ p ∈ pendingJobs s.log, (listing.lookup p.1).isSome = true → (s.app p.1).isSome = true
  | _ => True

instance (s : State) : (a : Action) → Decidable (KeepsJobs s a)
  | .upgradeAnswer n => by
    dsimp only [KeepsJobs]
    rcases s.tasks.get n with _ | ⟨_,(_ | _) | _ | _ | _ | _ | _ | _ | _ | _⟩ | _ <;> infer_instance
  | .appsAnswer listing => inferInstanceAs (Decidable
      (∀ p ∈ pendingJobs s.log, (listing.lookup p.1).isSome = true → (s.app p.1).isSome = true))
  | .refreshStart | .refreshAborted | .scanAnswer _ | .lookupAnswer _ | .entityCreated _ | .entityRemoved _ | .entityAdded _
  | .notifyEntity _ | .notifyWatch _ | .installCall _ | .jobCreated _ | .jobCreatedElsewhere _ | .upgradeFailed _
  | .wake _ _ | .pollAnswer _ _ _ | .resolveAnswer _ _ | .refreshDone _ | .instanceAnswer _ _ | .startAnswer _
  | .taskAborted _ | .installEnd _ | .watchResume _ | .watchTimeout _ => inferInstanceAs (Decidable True)

namespace NoLostJob
variable {s t : State}

/-- Nothing is lost by a step that adds no job and keeps what the listed rows track. -/
theorem congr (h : NoLostJob s) (hl : ∀ p ∈ pendingJobs t.log, p ∈ pendingJobs s.log)
    (ha : ∀ uid, (t.app uid).isSome = (s.app uid).isSome) (ht : t.tracked = s.tracked) :
    NoLostJob t := by
  intro p hp hs
  rw [ht]
  exact h p (hl p hp) (ha p.1 ▸ hs)

theorem frame (h : NoLostJob s) (hf : Frame s t) : NoLostJob t := by
  obtain ⟨es,hes,hq⟩ := hf.log
  refine h.congr (fun p hp => ?_) (fun uid => by rw [hf.app]) hf.tracked
  rw [hes] at hp
  exact pending_of_quiet hq hp

theorem publish (h : NoLostJob s) {listing : List (Uid × AppState)}
    (hk : KeepsJobs s (.appsAnswer listing)) : NoLostJob (s.publish listing) := by
  intro p hp hs
  obtain ⟨row,hr⟩ := Option.isSome_iff_exists.mp hs
  rw [State.app_publish] at hr
  have hlist : (listing.lookup p.1).isSome = true := by
    obtain ⟨state,hstate,_⟩ := Option.map_eq_some_iff.mp hr
    simp [hstate]
  have hlisted := hk p hp hlist
  obtain ⟨old,hold⟩ := Option.isSome_iff_exists.mp hlisted
  have htr : s.tracked p.1 = some p.2 := h p hp hlisted
  have hjob : row.job = old.job := by simpa [hold] using carryJobFields_eq_some hr
  simpa [State.tracked,hr,hold,hjob] using htr

theorem adopt (h : NoLostJob s) (jobs : List JobRecord) : NoLostJob (s.adoptRunningJobs jobs) := by
  intro p hp hs
  have hp' : p ∈ pendingJobs s.log := by
    refine pending_of_quiet (fun e he => ?_) hp
    obtain ⟨_,_,_,_,_,_,rfl⟩ := mem_scanReports he
    trivial
  obtain ⟨row,hr⟩ := Option.isSome_iff_exists.mp hs
  rw [State.app_adoptRunningJobs] at hr
  obtain ⟨old,hold,rfl⟩ := Option.map_eq_some_iff.mp hr
  have htr : s.tracked p.1 = some p.2 := h p hp' (by simp [hold])
  have hjob : old.job.updateJobid = some p.2 := by simpa [State.tracked,hold] using htr
  simp [State.tracked,hold,adoptedRow_of_tracked hjob,hjob]

/-- A row stops tracking a job only with a report after which the job is pending nowhere. -/
theorem refreshJob (h : NoLostJob s) (u : Uid) (k : JobId) (ans : LookupAnswer) :
    NoLostJob (s.refreshAppUpdateJob u k ans).1 := by
  intro p hp hs
  have hp' : p ∈ pendingJobs s.log ∧ ∀ r ∈ ans.report, r.Ends → p.2 ≠ k := by
    rw [State.log_refreshAppUpdateJob] at hp
    cases hr : ans.report with
    | none => exact ⟨by simpa [hr] using hp,by simp⟩
    | some r =>
      have hrep : p ∈ pendingJobs (.reported k r :: s.log) := by
        simp only [hr] at hp
        split at hp <;> exact hp
      refine ⟨updatePending_subset (e := .reported k r) trivial hrep,fun r' hr' he => ?_⟩
      obtain rfl := Option.some.inj hr'
      exact ne_of_pending_reported he hrep
  obtain ⟨hpend,hne⟩ := hp'
  have happ := s.app_refreshAppUpdateJob u k ans p.1
  by_cases hc : p.1 = u ∧ s.tracked u = some k
  · obtain ⟨hu,ht⟩ := hc
    obtain ⟨row,hrow,hrk⟩ := Option.bind_eq_some_iff.mp ht
    have hk : k = p.2 := Option.some.inj (ht.symm.trans (hu ▸ h p hpend (by simp [hu,hrow])))
    rw [if_pos ⟨hu,ht⟩,hu,hrow] at happ
    cases ans with
    | failed => simpa [State.tracked,hu,happ,State.recordAnswer,← hk] using hrk
    | missing => exact absurd hk.symm (hne .missing rfl trivial)
    | job j =>
      have ha : j.state.Active := by
        by_contra ha
        exact hne (.state j.state) rfl ha hk.symm
      simpa [State.tracked,hu,happ,State.recordAnswer,ha,← hk] using hrk
  · rw [if_neg hc] at happ
    have htr := h p hpend (happ ▸ hs)
    simpa [State.tracked,happ] using htr

theorem watchAdopted (h : NoLostJob s) (entity : Entity) : NoLostJob (s.watchAdoptedUpgrade entity) := by
  obtain ⟨es,hes,hq⟩ := s.log_watchAdoptedUpgrade entity
  refine h.congr (fun p hp => ?_) (fun u => by simp) (by simp)
  rw [hes] at hp
  refine pending_of_append (fun e he jobs hj => ?_) hp
  obtain ⟨job,rfl⟩ := hq e he
  exact hj

theorem upgraded (h : NoLostJob s) {n : ℕ} {entity : Entity} {job : JobId} (hl : LandsPublished s entity job) :
    NoLostJob (s.upgradeReturned n entity job) := by
  obtain ⟨ho,hd⟩ := hl
  have happ := s.app_upgradeReturned n entity job
  intro p hp hs
  have hlisted : (s.app p.1).isSome = true := by
    rw [happ] at hs
    split at hs <;> simpa using hs
  have hlog : p = (entity.uid,job) ∨ p ∈ pendingJobs s.log := by
    rw [State.log_upgradeReturned] at hp
    exact List.mem_cons.mp hp
  by_cases hu : p.1 = entity.uid
  · have hk : p.2 = job := hlog.elim (fun e => by rw [e]) (fun hp' => ho p hp' hu)
    rw [hu] at hlisted ⊢
    obtain ⟨row,hrow⟩ := Option.isSome_iff_exists.mp hlisted
    by_cases hpub : s.data entity = .row s.gen
    · simp [State.tracked,happ,hpub,hrow,storeUpgradeJob,hk]
    · simpa [State.tracked,happ,hpub,hk] using (hd hlisted).resolve_left hpub
  · have hold := h p (hlog.resolve_left (fun e => hu (by rw [e]))) hlisted
    simpa [State.tracked,happ,hu] using hold

theorem step {a : Action} (h : NoLostJob s) (hk : KeepsJobs s a) (hst : system.step s a = some t) :
    NoLostJob t := by
  cases (Step.of_step hst).rowStep with
  | publish => exact (h.publish hk).frame (.setRefresh _ _)
  | adopt _ => exact (h.adopt _).frame (.setRefresh _ _)
  | looked _ hf => exact (h.refreshJob _ _ _).frame hf
  | polled _ hf => exact (h.refreshJob _ _ _).frame hf
  | entityCreated _ => exact h.congr (fun _ hp => hp) (fun _ => rfl) rfl
  | entityAdded _ => exact h.watchAdopted _
  | @notifyEntity _ entity _ =>
    have hr : NoLostJob (s.refreshData entity) := h.congr (fun _ hp => hp) (fun _ => rfl) rfl
    exact hr.watchAdopted entity
  | upgraded hn =>
    simp only [KeepsJobs,hn] at hk
    exact h.upgraded hk
  | @installEnd n entity _ =>
    have hd : NoLostJob (s.dropInstall n entity) := h.congr (fun _ hp => hp) (fun _ => rfl) rfl
    exact hd.watchAdopted entity
  | installCall _ => exact h.congr (fun _ hp => hp) (fun _ => rfl) rfl
  | jobCreated _ => exact h.congr (fun _ hp => hp) (fun _ => rfl) rfl
  | jobCreatedElsewhere => exact h.congr (fun _ hp => hp) (fun _ => rfl) rfl
  | started _ _ => exact h.congr (fun _ hp => hp) (fun _ => rfl) rfl
  | frame _ hf => exact h.frame hf

end NoLostJob

theorem noLostJob_initial {s : State} (h : system.init s) : NoLostJob s := by
  cases h
  exact fun p hp => absurd hp (by simp [State.initial,pendingJobs])

/-- In every run whose steps meet `KeepsJobs`, no state loses the id of a pending job. -/
theorem noLostJob_of_reach {s : State} (h : system.Reach KeepsJobs s) : NoLostJob s :=
  h.invariant (fun _ hi => noLostJob_initial hi) NoLostJob.step

def installing : List Action :=
  [.refreshStart,.appsAnswer [("a",.running)],.scanAnswer (some []),.entityCreated "a",
    .installCall "a",.jobCreated 0]

/-- The id survives a publication between the end of `app.upgrade` and the next poll. -/
theorem noLostJob_of_reach_installing : ∃ s, (system.Reach KeepsJobs s ∧ s.gen = 2 ∧
    pendingJobs s.log = [("a",1)] ∧ (s.app "a").isSome = true) ∧ s.tracked "a" = some 1 := by
  obtain ⟨s,hr,hg,hp,ha⟩ := system.exists_reach_of_run KeepsJobs rfl
    (installing ++ [.upgradeAnswer 0,.refreshStart,.appsAnswer [("a",.running)]])
    (fun s => s.gen = 2 ∧ pendingJobs s.log = [("a",1)] ∧ (s.app "a").isSome = true) (by decide)
  exact ⟨s,⟨hr,hg,hp,ha⟩,noLostJob_of_reach hr ("a",1) (by simp [hp]) ha⟩

/-- A publication while `app.upgrade` is awaited: the id goes into the replaced row. -/
theorem not_noLostJob_of_publication : ¬ ∀ s, system.Reachable s → NoLostJob s := by
  intro hall
  obtain ⟨s,hr,hn⟩ := system.exists_reach_of_run (fun _ _ => True) rfl
    (installing ++ [.refreshStart,.appsAnswer [("a",.running)],.upgradeAnswer 0])
    (fun s => ¬ NoLostJob s) (by decide)
  exact hn (hall s hr)
end TruenasCE.AppUpdate
