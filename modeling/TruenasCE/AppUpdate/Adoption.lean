import TruenasCE.AppUpdate.Frame

/-! # Adopted upgrades and their watches

`update_adopted_jobid` hands a job found running by the scan to the entity, which
consumes the marker and starts the watch. The marker is consumed through `_data`, and
only the installs of the object itself hold it back; so a job is watched once along every
run in which `_data` is the published row whenever a marker in it is about to be consumed
or claimed by an install, and none is consumed while an install of another object of the
app waits for `app.upgrade`.
-/
namespace TruenasCE.AppUpdate
open Library

/-- `update_adopted_jobid` of the published row. -/
def State.marker (s : State) (uid : Uid) : Option JobId := s.published Tracking.updateAdoptedJobid uid

def Task.isInstall (entity : Entity) : Task → Bool
  | .install e _ => decide (e = entity)
  | _ => false

/-- An install of another object of the app waits for `app.upgrade`. -/
def Task.AwaitsUpgrade (entity : Entity) : Task → Prop
  | .install e (.upgrading _) => e.uid = entity.uid ∧ e ≠ entity
  | _ => False

instance (entity : Entity) : (task : Task) → Decidable (task.AwaitsUpgrade entity)
  | .install e (.upgrading _) => inferInstanceAs (Decidable (e.uid = entity.uid ∧ e ≠ entity))
  | .install _ (.sleeping _) | .install _ (.polling _ _) | .install _ (.handedOver _) | .install _ (.resolving _)
  | .install _ (.refreshing _ _) | .install _ (.inspecting _) | .install _ (.starting _) | .install _ .finishing
  | .watch _ _ _ _ => inferInstanceAs (Decidable False)

def Task.WatchesAdopted (uid : Uid) (job : JobId) : Task → Prop
  | .watch e k restart _ => e.uid = uid ∧ k = job ∧ restart = false
  | _ => False

instance (uid : Uid) (job : JobId) : (task : Task) → Decidable (task.WatchesAdopted uid job)
  | .install _ _ => inferInstanceAs (Decidable False)
  | .watch e k restart _ => inferInstanceAs (Decidable (e.uid = uid ∧ k = job ∧ restart = false))

def Event.adoptedStart : Event → Option (Uid × JobId)
  | .watchStarted _ uid job false => some (uid,job)
  | _ => none

def Event.handedOver : Event → Option (Uid × JobId)
  | .upgraded uid job => some (uid,job)
  | _ => none

/-- At most one adopted watch runs for an app and a job. -/
def WatchedOnce (s : State) : Prop := ∀ n m uid job x y, s.tasks.get n = some x → s.tasks.get m = some y →
  x.WatchesAdopted uid job → y.WatchesAdopted uid job → n = m

/-- No job that `app.upgrade` returned is ever watched as adopted. -/
def OwnNotAdopted (s : State) : Prop := ∀ d ∈ s.log, ∀ e ∈ s.log, ∀ p ∈ d.handedOver, ∀ q ∈ e.adoptedStart, p.2 ≠ q.2

instance (s : State) : Decidable (OwnNotAdopted s) :=
  inferInstanceAs (Decidable (∀ d ∈ s.log, ∀ e ∈ s.log, ∀ p ∈ d.handedOver, ∀ q ∈ e.adoptedStart, p.2 ≠ q.2))

/-- The step starts the adopted watch of `job`, or returns `job` to the install that owns
it. -/
def Claims (s : State) (a : Action) (t : State) (uid : Uid) (job : JobId) : Prop :=
  t.log = .watchStarted s.tasks.next uid job false :: s.log ∨
  ∃ n entity, a = .upgradeAnswer n ∧ entity.uid = uid ∧ s.tasks.get n = some (.install entity (.upgrading (some job)))

/-- A marker of an app that stays listed changes only in a step that claims its job. -/
def MarkerKept (s : State) (a : Action) (t : State) : Prop := ∀ uid, ∀ job ∈ s.marker uid,
  (t.app uid).isSome = true → t.marker uid ≠ some job → Claims s a t uid job

/-- The marker that the entity is about to consume is the published one, and no install of another object
of the app waits for `app.upgrade`. -/
def MayConsume (s : State) (entity : Entity) (inFlight : ℕ) : Prop :=
  (s.dataJob entity).updateAdoptedJobid = none ∨ inFlight ≠ 0 ∨
    (s.data entity = .row s.gen ∧ ∀ n < s.tasks.next, ∀ task ∈ s.tasks.get n, ¬ task.AwaitsUpgrade entity)

instance (s : State) (entity : Entity) (inFlight : ℕ) : Decidable (MayConsume s entity inFlight) :=
  inferInstanceAs (Decidable (_ ∨ _ ∨
    (_ ∧ ∀ n < s.tasks.next, ∀ task ∈ s.tasks.get n, ¬ task.AwaitsUpgrade entity)))

/-- `k` may be adopted for `uid`: no marker waits there, the job was not returned to an
install, and no watch of its adoption runs. -/
def MayAdopt (s : State) (uid : Uid) (k : JobId) : Prop :=
  s.marker uid = none ∧ (∀ e ∈ s.log, ∀ p ∈ e.handedOver, p.2 ≠ k) ∧
  ∀ n < s.tasks.next, ∀ task ∈ s.tasks.get n, ¬ task.WatchesAdopted uid k

instance (s : State) (uid : Uid) (k : JobId) : Decidable (MayAdopt s uid k) :=
  inferInstanceAs (Decidable (_ ∧ (∀ e ∈ s.log, ∀ p ∈ e.handedOver, p.2 ≠ k) ∧
    ∀ n < s.tasks.next, ∀ task ∈ s.tasks.get n, ¬ task.WatchesAdopted uid k))

/-- The condition on a step: a marker is consumed or claimed in the published row, it is consumed only while no install
of another object waits, and a scan adopts only jobs nobody owns for rows without a marker. -/
def ClaimsOnce (s : State) : Action → Prop
  | .entityAdded uid => ∀ entity ∈ s.platformEntity uid, MayConsume s entity (s.inFlight entity)
  | .notifyEntity uid =>
    ∀ entity ∈ s.platformEntity uid, MayConsume (s.refreshData entity) entity (s.inFlight entity)
  | .installEnd n =>
    match s.tasks.get n with
    | some (.install entity .finishing) => MayConsume s entity (s.inFlight entity - 1)
    | _ => True
  | .upgradeAnswer n =>
    match s.tasks.get n with
    | some (.install entity (.upgrading (some job))) => s.marker entity.uid ≠ some job ∨ s.data entity = .row s.gen
    | _ => True
  | .scanAnswer (some jobs) => ∀ job ∈ jobs, ∀ uid ∈ upgradeJobApp job, ∀ k ∈ job.id,
      firstUpgrade jobs uid = some job → (s.app uid).isSome = true → s.tracked uid = none → MayAdopt s uid k
  | _ => True

instance (s : State) : (a : Action) → Decidable (ClaimsOnce s a)
  | .entityAdded uid =>
    inferInstanceAs (Decidable (∀ entity ∈ s.platformEntity uid, MayConsume s entity (s.inFlight entity)))
  | .notifyEntity uid => inferInstanceAs (Decidable
      (∀ entity ∈ s.platformEntity uid, MayConsume (s.refreshData entity) entity (s.inFlight entity)))
  | .installEnd n => by
    dsimp only [ClaimsOnce]
    rcases s.tasks.get n with _ | ⟨_,_ | _ | _ | _ | _ | _ | _ | _ | _⟩ | _ <;> infer_instance
  | .upgradeAnswer n => by
    dsimp only [ClaimsOnce]
    rcases s.tasks.get n with _ | ⟨_,(_ | _) | _ | _ | _ | _ | _ | _ | _ | _⟩ | _ <;> infer_instance
  | .scanAnswer none => inferInstanceAs (Decidable True)
  | .scanAnswer (some jobs) => inferInstanceAs (Decidable (∀ job ∈ jobs, ∀ uid ∈ upgradeJobApp job, ∀ k ∈ job.id,
      firstUpgrade jobs uid = some job → (s.app uid).isSome = true → s.tracked uid = none → MayAdopt s uid k))
  | .refreshStart | .refreshAborted | .appsAnswer _ | .lookupAnswer _ | .entityCreated _ | .entityRemoved _
  | .notifyWatch _ | .installCall _ | .jobCreated _ | .jobCreatedElsewhere _ | .upgradeFailed _ | .wake _ _
  | .pollAnswer _ _ _ | .resolveAnswer _ _ | .refreshDone _ | .instanceAnswer _ _ | .startAnswer _
  | .taskAborted _ | .watchResume _ | .watchTimeout _ => inferInstanceAs (Decidable True)

/-- Neither the watch of an adopted job nor an install whose job exists already. -/
def Task.Inert : Task → Prop
  | .install _ (.upgrading (some _)) => False
  | .watch _ _ false _ => False
  | _ => True

/-- What one task does without starting an install or an adopted watch. -/
inductive TaskMove (T U : TaskTable Task) : Prop
  | same (hu : U = T)
  | install {n : ℕ} {entity : Entity} {pc pc' : InstallPc} (hn : T.get n = some (.install entity pc))
      (hu : U = T.set n (some (.install entity pc'))) (hi : (Task.install entity pc').Inert)
  | watch {n : ℕ} {entity : Entity} {job : JobId} {restart : Bool} {pc pc' : WatchPc}
      (hn : T.get n = some (.watch entity job restart pc)) (hu : U = T.set n (some (.watch entity job restart pc')))
  | stop {n : ℕ} {entity : Entity} {job : JobId} {restart : Bool} {pc : WatchPc}
      (hn : T.get n = some (.watch entity job restart pc)) (hu : U = T.set n none)
  | handOver {n : ℕ} {entity : Entity} {pc : InstallPc} {job : JobId} {f : Bool} (hn : T.get n = some (.install entity pc))
      (hu : U = (T.spawn (.watch entity job true (.waiting f))).set n (some (.install entity (.handedOver job))))

namespace TaskMove
variable {T U : TaskTable Task}

theorem get (h : TaskMove T U) {m : ℕ} {y : Task} (hy : U.get m = some y) :
    y.Inert ∨ T.get m = some y ∨ ∃ entity job restart pc pc', y = .watch entity job restart pc' ∧
      T.get m = some (.watch entity job restart pc) := by
  cases h with
  | same hu => exact Or.inr (Or.inl (hu ▸ hy))
  | install hn hu hi =>
    subst hu
    rcases TaskTable.get_set_cases hy with ⟨_,he⟩ | ⟨_,he⟩
    · cases he
      exact Or.inl hi
    · exact Or.inr (Or.inl he)
  | watch hn hu =>
    subst hu
    rcases TaskTable.get_set_cases hy with ⟨rfl,he⟩ | ⟨_,he⟩
    · cases he
      exact Or.inr (Or.inr ⟨_,_,_,_,_,rfl,hn⟩)
    · exact Or.inr (Or.inl he)
  | stop hn hu =>
    subst hu
    rcases TaskTable.get_set_cases hy with ⟨_,he⟩ | ⟨_,he⟩
    · cases he
    · exact Or.inr (Or.inl he)
  | handOver hn hu =>
    subst hu
    rcases TaskTable.get_set_cases hy with ⟨_,he⟩ | ⟨_,he⟩
    · cases he
      exact Or.inl trivial
    rcases TaskTable.get_spawn_cases he with ⟨_,rfl⟩ | he
    · exact Or.inl trivial
    · exact Or.inr (Or.inl he)

theorem count (h : TaskMove T U) (entity : Entity) : U.count (Task.isInstall entity) = T.count (Task.isInstall entity) := by
  cases h with
  | same hu => rw [hu]
  | install hn hu _ =>
    subst hu
    exact TaskTable.count_set_of_eq hn rfl
  | watch hn hu =>
    subst hu
    exact TaskTable.count_set_of_eq hn rfl
  | stop hn hu =>
    subst hu
    exact TaskTable.count_set_none_of_not hn rfl
  | @handOver n v pc job f hn hu =>
    have hn' : (T.spawn (.watch v job true (.waiting f))).get n = some (.install v pc) := by
      rw [TaskTable.get_spawn,if_neg (TaskTable.lt_next hn).ne]
      exact hn
    have hc := TaskTable.count_set_of_eq (p := Task.isInstall entity) (y := .install v (.handedOver job)) hn' rfl
    rw [hu,hc,TaskTable.count_spawn]
    simp [Task.isInstall]

theorem afterPoll {s : State} {n : ℕ} {entity : Entity} {job : JobId} {late : Bool} {pc : InstallPc}
    (hn : s.tasks.get n = some (.install entity pc)) : TaskMove s.tasks (s.afterPoll n entity job late).tasks := by
  rcases s.afterPoll_cases n entity job late with ⟨pc',he,hpc⟩ | he
  · refine .install hn (by rw [he,State.tasks_setTask]) ?_
    rcases hpc with rfl | rfl | rfl <;> trivial
  · exact .handOver hn (by rw [he]; rfl)

theorem returned {s t : State} {n : ℕ} {task : Task} (hn : s.tasks.get n = some task)
    (ht : t.tasks = s.tasks.set n task.returned) : TaskMove s.tasks t.tasks := by
  cases task with
  | install entity pc => exact .install hn ht trivial
  | watch entity job restart pc => exact .stop hn ht

end TaskMove

theorem Step.taskMove {s t : State} {a : Action} (ha : Plain a) (h : Step s a t) : TaskMove s.tasks t.tasks := by
  cases h with
  | refreshStart _ => exact .same rfl
  | refreshAborted => exact .same rfl
  | appsAnswer _ => exact .same rfl
  | scanFailed => exact .same rfl
  | scanAnswer _ => exact .same rfl
  | lookupAnswer _ => exact .same (by simp)
  | entityCreated _ => exact .same rfl
  | entityRemoved => exact .same rfl
  | entityAdded _ => exact ha.elim
  | notifyEntity _ => exact ha.elim
  | notifyWatch hn => exact .watch hn rfl
  | installCall _ => exact ha.elim
  | jobCreated _ => exact ha.elim
  | jobCreatedElsewhere => exact .same rfl
  | upgradeFailed hn => exact .install hn rfl trivial
  | @upgradeAnswer n entity job hn =>
    exact .install hn (State.tasks_upgradeReturned s n entity job) trivial
  | @wake n entity job late hn =>
    rcases s.pollUpgradeJob_cases n entity job late with ⟨pc,he,hpc⟩ | he
    · refine .install hn (by rw [he,State.tasks_setTask]) ?_
      rcases hpc with rfl | ⟨k,rfl⟩ <;> trivial
    · rw [he]
      exact .afterPoll hn
  | @pollAnswer n entity job k ans late hn =>
    rcases s.pollAnswered_cases n entity job k ans late with ⟨j,_,_,he⟩ | he
    · refine .install hn (by rw [he,State.tasks_setTask,State.tasks_refreshAppUpdateJob]) ?_
      trivial
    · have hn' : (s.refreshAppUpdateJob entity.uid k ans).1.tasks.get n = some (.install entity (.polling job k)) := by
        simpa using hn
      rw [he,← State.tasks_refreshAppUpdateJob s entity.uid k ans]
      exact .afterPoll hn'
  | @installResolved n entity job ans hn =>
    refine .install hn (by rw [State.tasks_setTask,State.tasks_emitLookup]) ?_
    cases (s.emitLookup job ans).resolveUntrackedJob entity job ans <;> trivial
  | @watchResolved n entity job restart skipped ans outcome hn _ =>
    obtain ⟨o,ho,hu⟩ := (s.emitLookup job ans).tasks_watchResolved n entity job restart skipped outcome
    rw [State.tasks_emitLookup] at ho
    cases o with
    | none => exact .stop hn ho
    | some task =>
      obtain ⟨rfl,_,_⟩ := hu task rfl
      exact .watch hn ho
  | watchUnresolved hn => exact .stop hn (by rw [State.tasks_setTask,State.tasks_emitLookup])
  | handoverDone hn => exact .install hn rfl trivial
  | @refreshDone n entity job outcome hn =>
    rcases s.tasks_handleUpgradeOutcome n (.install entity (.refreshing job outcome)) job none outcome with ho | ⟨ho,_⟩
    · exact .returned hn ho
    · exact .install hn ho trivial
  | @installInspected n entity job state hn =>
    rcases s.tasks_restartAfterFailedUpgrade n (.install entity (.inspecting job)) job state with ho | ho
    · exact .returned hn ho
    · exact .install hn ho trivial
  | @watchInspected n entity job restart state hn =>
    rcases s.tasks_restartAfterFailedUpgrade n (.watch entity job restart .inspecting) job state with ho | ho
    · exact .returned hn ho
    · exact .watch hn ho
  | installStarted hn => exact .install hn rfl trivial
  | watchStarted hn => exact .stop hn rfl
  | taskAborted hn => exact .returned hn rfl
  | installEnd _ => exact ha.elim
  | @watchResume n entity job restart hn =>
    unfold State.watchFinished
    split
    · exact .stop hn rfl
    · cases s.lateRestartSkipped entity job restart with
      | none => exact .stop hn rfl
      | some skipped => exact .watch hn rfl
  | watchTimeout hn => exact .stop hn rfl

/-- Who owns which job: markers and adopted watches on one side, installs on the other. -/
structure Owned (s : State) : Prop where
  inFlight : ∀ entity, s.inFlight entity = s.tasks.count (Task.isInstall entity)
  fresh : ∀ k, s.nextJob ≤ k → s.jobApp k = none
  markerApp : ∀ uid, ∀ k ∈ s.marker uid, s.jobApp k = some uid
  markerFree : ∀ uid, ∀ k ∈ s.marker uid, ∀ e ∈ s.log, ∀ p ∈ e.handedOver, p.2 ≠ k
  markerIdle : ∀ uid, ∀ k ∈ s.marker uid, ∀ n x, s.tasks.get n = some x → ¬ x.WatchesAdopted uid k
  createdApp : ∀ n entity k, s.tasks.get n = some (.install entity (.upgrading (some k))) →
    s.jobApp k = some entity.uid
  createdFree : ∀ n entity k, s.tasks.get n = some (.install entity (.upgrading (some k))) →
    ∀ e ∈ s.log, ∀ p ∈ e.adoptedStart, p.2 ≠ k
  startedApp : ∀ e ∈ s.log, ∀ p ∈ e.adoptedStart, s.jobApp p.2 = some p.1
  own : OwnNotAdopted s
  once : WatchedOnce s

/-- How a step changes the markers of published rows. -/
structure Markers (s t : State) : Prop where
  step : ∀ uid, t.marker uid = s.marker uid ∨ (t.app uid = none ∧ t.marker uid = none) ∨
    ∃ k, MayAdopt s uid k ∧ s.jobApp k = some uid ∧ t.marker uid = some k
  inFlight : t.inFlight = s.inFlight
  jobs : t.nextJob = s.nextJob ∧ t.jobApp = s.jobApp
  log : ∀ e ∈ t.log, e ∈ s.log ∨ (e.handedOver = none ∧ e.adoptedStart = none)

theorem Event.Quiet.owns {e : Event} (h : e.Quiet) : e.handedOver = none ∧ e.adoptedStart = none := by
  cases e with
  | upgraded uid k => exact h.elim
  | watchStarted n uid k restart =>
    obtain rfl : restart = true := h
    exact ⟨rfl,rfl⟩
  | _ => exact ⟨rfl,rfl⟩

namespace Markers
variable {s t u : State}

theorem of_app (ha : t.app = s.app) (hi : t.inFlight = s.inFlight)
    (hj : t.nextJob = s.nextJob ∧ t.jobApp = s.jobApp)
    (hl : ∀ e ∈ t.log, e ∈ s.log ∨ (e.handedOver = none ∧ e.adoptedStart = none)) : Markers s t :=
  ⟨fun uid => Or.inl (by simp [State.marker,State.published,ha]),hi,hj,hl⟩

theorem frame (h : Markers s t) (hf : Frame t u) : Markers s u := by
  obtain ⟨es,hes,hq⟩ := hf.log
  refine ⟨fun uid => ?_,hf.inFlight.trans h.inFlight,
    ⟨hf.nextJob.trans h.jobs.1,hf.jobApp.trans h.jobs.2⟩,fun e he => ?_⟩
  · have hm : u.marker uid = t.marker uid := by simp [State.marker,State.published,hf.app]
    rw [hm,hf.app]
    exact h.step uid
  · rw [hes] at he
    rcases List.mem_append.mp he with he | he
    · exact Or.inr (hq e he).owns
    · exact h.log e he

theorem publish (s : State) (listing : List (Uid × AppState)) : Markers s (s.publish listing) := by
  refine ⟨fun uid => ?_,rfl,⟨rfl,rfl⟩,fun e he => Or.inl he⟩
  have hm : (s.publish listing).marker uid = if (listing.lookup uid).isSome then s.marker uid else none :=
    s.published_publish rfl listing uid
  cases hl : listing.lookup uid with
  | some state => exact Or.inl (by simpa [hl] using hm)
  | none => exact Or.inr (Or.inl ⟨by simp [carryJobFields,hl],by simpa [hl] using hm⟩)

theorem adopt {jobs : List JobRecord} (hk : ClaimsOnce s (.scanAnswer (some jobs)))
    (ht : ∀ job ∈ jobs, s.Truthful job) : Markers s (s.adoptRunningJobs jobs) := by
  refine ⟨fun uid => ?_,rfl,⟨rfl,rfl⟩,fun e he => ?_⟩
  · unfold State.marker State.published
    rw [State.app_adoptRunningJobs]
    cases hr : s.app uid with
    | none => exact Or.inl rfl
    | some row =>
      cases hj : row.job.updateJobid with
      | some k => exact Or.inl (by simp [adoptedRow_of_tracked hj])
      | none =>
        cases hf : firstUpgrade jobs uid with
        | none => exact Or.inl (by simp [adoptedRow,hj,hf])
        | some job =>
          obtain ⟨hmem,hu⟩ := firstUpgrade_app hf
          obtain ⟨k,hid⟩ := id_of_upgradeJobApp hu
          have hmay := hk job hmem uid hu k hid hf (by simp [hr]) (by simp [State.tracked,hr,hj])
          have happ : s.jobApp k = some uid := by simpa [hid] using ht job hmem uid hu
          exact Or.inr (Or.inr ⟨k,hmay,happ,by simp [adoptedRow,hj,hf,adoptRow,hid]⟩)
  · rcases List.mem_append.mp he with he | he
    · obtain ⟨_,_,_,_,_,_,rfl⟩ := mem_scanReports he
      exact Or.inr ⟨rfl,rfl⟩
    · exact Or.inl he

theorem refreshJob (s : State) (v : Uid) (k : JobId) (ans : LookupAnswer) :
    Markers s (s.refreshAppUpdateJob v k ans).1 := by
  have keeps : ∀ vals, (State.recordAnswer ans vals).updateAdoptedJobid = vals.updateAdoptedJobid := by
    intro vals
    cases ans with
    | failed => rfl
    | missing => rfl
    | job j => by_cases ha : j.state.Active <;> simp [State.recordAnswer,ha]
  refine ⟨fun uid => Or.inl ?_,by simp,⟨by simp,by simp⟩,fun e he => ?_⟩
  · unfold State.marker
    rw [State.published_refreshAppUpdateJob]
    split
    · simp only [keeps]
    · rfl
  · obtain ⟨es,hes,_,hes'⟩ := s.reported_refreshAppUpdateJob v k ans
    rw [hes] at he
    rcases List.mem_append.mp he with he | he
    · rcases hes' e he with rfl | ⟨r,rfl⟩ <;> exact Or.inr ⟨rfl,rfl⟩
    · exact Or.inl he

end Markers

namespace Owned
variable {s t : State}

theorem plain (h : Owned s) (hm : Markers s t) (ht : TaskMove s.tasks t.tasks) : Owned t := by
  have marked : ∀ {uid k}, k ∈ t.marker uid → k ∈ s.marker uid ∨ (MayAdopt s uid k ∧ s.jobApp k = some uid) := by
    intro uid k hk
    rcases hm.step uid with he | ⟨_,he⟩ | ⟨k',hmay,happ,he⟩
    · exact Or.inl (he ▸ hk)
    · simp [he] at hk
    · obtain rfl : k' = k := by simpa [he] using hk
      exact Or.inr ⟨hmay,happ⟩
  have handed : ∀ e ∈ t.log, ∀ p ∈ e.handedOver, e ∈ s.log := fun e he p hp =>
    (hm.log e he).resolve_right (fun hn => by simp [hn.1] at hp)
  have adopted : ∀ e ∈ t.log, ∀ p ∈ e.adoptedStart, e ∈ s.log := fun e he p hp =>
    (hm.log e he).resolve_right (fun hn => by simp [hn.2] at hp)
  have watched : ∀ {n y uid k}, t.tasks.get n = some y → y.WatchesAdopted uid k →
      ∃ x, s.tasks.get n = some x ∧ x.WatchesAdopted uid k := by
    intro n y uid k hy hw
    rcases ht.get hy with hi | hx | ⟨v,k',r,pc,pc',rfl,hx⟩
    · cases y with
      | install v pc => exact hw.elim
      | watch v k' r pc =>
        obtain ⟨rfl,rfl,rfl⟩ := hw
        exact hi.elim
    · exact ⟨y,hx,hw⟩
    · exact ⟨_,hx,hw⟩
  have created : ∀ {n entity k}, t.tasks.get n = some (.install entity (.upgrading (some k))) →
      s.tasks.get n = some (.install entity (.upgrading (some k))) := by
    intro n entity k hy
    rcases ht.get hy with hi | hx | ⟨v,k',r,pc,pc',he,_⟩
    · exact hi.elim
    · exact hx
    · cases he
  exact {
    inFlight := fun entity => by rw [hm.inFlight,ht.count,h.inFlight]
    fresh := fun k hk => by rw [hm.jobs.2,h.fresh k (hm.jobs.1 ▸ hk)]
    markerApp := fun uid k hk => by
      rw [hm.jobs.2]
      exact (marked hk).elim (h.markerApp uid k) (fun hn => hn.2)
    markerFree := fun uid k hk e he p hp => (marked hk).elim
      (fun hk' => h.markerFree uid k hk' e (handed e he p hp) p hp)
      (fun hn => hn.1.2.1 e (handed e he p hp) p hp)
    markerIdle := fun uid k hk n y hy hw => by
      obtain ⟨x,hx,hw'⟩ := watched hy hw
      exact (marked hk).elim (fun hk' => h.markerIdle uid k hk' n x hx hw')
        (fun hn => hn.1.2.2 n (TaskTable.lt_next hx) x hx hw')
    createdApp := fun n entity k hn => by
      rw [hm.jobs.2]
      exact h.createdApp n entity k (created hn)
    createdFree := fun n entity k hn e he p hp => h.createdFree n entity k (created hn) e (adopted e he p hp) p hp
    startedApp := fun e he p hp => by
      rw [hm.jobs.2]
      exact h.startedApp e (adopted e he p hp) p hp
    own := fun d hd e he p hp q hq => h.own d (handed d hd p hp) e (adopted e he q hq) p hp q hq
    once := fun n m uid k x y hx hy hwx hwy => by
      obtain ⟨x',hx',hwx'⟩ := watched hx hwx
      obtain ⟨y',hy',hwy'⟩ := watched hy hwy
      exact h.once n m uid k x' y' hx' hy' hwx' hwy' }

theorem congr (h : Owned s) (ha : t.app = s.app) (hi : t.inFlight = s.inFlight) (hn : t.nextJob = s.nextJob)
    (hj : t.jobApp = s.jobApp) (hl : t.log = s.log) (ht : t.tasks = s.tasks) : Owned t :=
  h.plain (Markers.of_app ha hi ⟨hn,hj⟩ (fun _ he => Or.inl (hl ▸ he))) (.same ht)

theorem newJob (h : Owned s) (v : Uid) : Owned (s.newJob v) := by
  have keep : ∀ {k u}, s.jobApp k = some u → (s.newJob v).jobApp k = some u := by
    intro k u hk
    have hne : k ≠ s.nextJob := by
      rintro rfl
      simp [h.fresh _ le_rfl] at hk
    simpa [State.newJob,hne] using hk
  exact {
    inFlight := h.inFlight
    fresh := fun k hk => by
      have hlt : s.nextJob < k := hk
      simpa [State.newJob,hlt.ne'] using h.fresh k hlt.le
    markerApp := fun uid k hk => keep (h.markerApp uid k hk)
    markerFree := h.markerFree
    markerIdle := h.markerIdle
    createdApp := fun n entity k hn => keep (h.createdApp n entity k hn)
    createdFree := h.createdFree
    startedApp := fun e he p hp => keep (h.startedApp e he p hp)
    own := h.own
    once := h.once }

theorem jobCreated (h : Owned s) {n : ℕ} {entity : Entity} (hn : s.tasks.get n = some (.install entity (.upgrading none))) :
    Owned ((s.newJob entity.uid).setTask n (some (.install entity (.upgrading (some s.nextJob))))) := by
  have hb := h.newJob entity.uid
  have old : ∀ {m y}, ((s.newJob entity.uid).setTask n (some (.install entity (.upgrading (some s.nextJob))))).tasks.get m
      = some y → (m = n ∧ y = .install entity (.upgrading (some s.nextJob))) ∨ s.tasks.get m = some y := by
    intro m y hy
    rcases TaskTable.get_set_cases hy with ⟨rfl,he⟩ | ⟨_,he⟩
    · exact Or.inl ⟨rfl,(Option.some.inj he).symm⟩
    · exact Or.inr he
  exact {
    inFlight := fun v => by
      have hc := TaskTable.count_set_of_eq (p := Task.isInstall v)
        (y := .install entity (.upgrading (some s.nextJob))) hn rfl
      exact (h.inFlight v).trans hc.symm
    fresh := hb.fresh
    markerApp := hb.markerApp
    markerFree := hb.markerFree
    markerIdle := fun v k hk m y hy hw => by
      rcases old hy with ⟨_,rfl⟩ | hx
      · exact hw
      · exact hb.markerIdle v k hk m y hx hw
    createdApp := fun m v k hm => by
      rcases old hm with ⟨_,he⟩ | hx
      · cases he
        simp [State.newJob]
      · exact hb.createdApp m v k hx
    createdFree := fun m v k hm e he p hp => by
      rcases old hm with ⟨_,hk⟩ | hx
      · cases hk
        intro hpk
        have happ := h.startedApp e he p hp
        rw [hpk,h.fresh _ le_rfl] at happ
        cases happ
      · exact hb.createdFree m v k hx e he p hp
    startedApp := hb.startedApp
    own := hb.own
    once := fun a b v k x y hx hy hwx hwy => by
      rcases old hx with ⟨_,rfl⟩ | hx
      · exact hwx.elim
      rcases old hy with ⟨_,rfl⟩ | hy
      · exact hwy.elim
      exact hb.once a b v k x y hx hy hwx hwy }

theorem installCall (h : Owned s) (entity : Entity) : Owned (s.startInstall entity) := by
  have old : ∀ {m y}, (s.startInstall entity).tasks.get m = some y →
      y = .install entity (.upgrading none) ∨ s.tasks.get m = some y :=
    fun hy => (TaskTable.get_spawn_cases hy).imp (fun he => he.2) id
  exact {
    inFlight := fun v => by
      have hc := s.tasks.count_spawn (p := Task.isInstall v) (.install entity (.upgrading none))
      have hv := h.inFlight v
      by_cases hu : v = entity
      · subst hu
        simp only [State.startInstall,Function.update_self,hc,hv,Task.isInstall,decide_true,if_true]
      · simp only [State.startInstall,Function.update_of_ne hu,hc,hv,Task.isInstall]
        simp [Ne.symm hu]
    fresh := h.fresh
    markerApp := h.markerApp
    markerFree := h.markerFree
    markerIdle := fun v k hk m y hy hw => by
      rcases old hy with rfl | hx
      · exact hw
      · exact h.markerIdle v k hk m y hx hw
    createdApp := fun m v k hm => by
      rcases old hm with he | hx
      · cases he
      · exact h.createdApp m v k hx
    createdFree := fun m v k hm => by
      rcases old hm with he | hx
      · cases he
      · exact h.createdFree m v k hx
    startedApp := h.startedApp
    own := h.own
    once := fun a b v k x y hx hy hwx hwy => by
      rcases old hx with rfl | hx
      · exact hwx.elim
      rcases old hy with rfl | hy
      · exact hwy.elim
      exact h.once a b v k x y hx hy hwx hwy }

theorem dropInstall (h : Owned s) {n : ℕ} {entity : Entity} (hn : s.tasks.get n = some (.install entity .finishing)) :
    Owned (s.dropInstall n entity) := by
  have old : ∀ {m y}, (s.dropInstall n entity).tasks.get m = some y → s.tasks.get m = some y := by
    intro m y hy
    rcases TaskTable.get_set_cases hy with ⟨_,he⟩ | ⟨_,he⟩
    · cases he
    · exact he
  exact {
    inFlight := fun v => by
      have hv := h.inFlight v
      by_cases hu : v = entity
      · subst hu
        have hc := TaskTable.count_set_none (p := Task.isInstall v) hn (by simp [Task.isInstall])
        have hd : (s.dropInstall n v).inFlight v = s.inFlight v - 1 := by simp [State.dropInstall]
        rw [hd,hv]
        exact hc.symm
      · have hc := TaskTable.count_set_none_of_not (p := Task.isInstall v) hn (by simp [Task.isInstall,Ne.symm hu])
        have hd : (s.dropInstall n entity).inFlight v = s.inFlight v := by simp [State.dropInstall,hu]
        rw [hd,hv]
        exact hc.symm
    fresh := h.fresh
    markerApp := h.markerApp
    markerFree := h.markerFree
    markerIdle := fun v k hk m y hy => h.markerIdle v k hk m y (old hy)
    createdApp := fun m v k hm => h.createdApp m v k (old hm)
    createdFree := fun m v k hm => h.createdFree m v k (old hm)
    startedApp := h.startedApp
    own := h.own
    once := fun a b v k x y hx hy => h.once a b v k x y (old hx) (old hy) }

end Owned

theorem consume_cases {s : State} {entity : Entity} (hc : MayConsume s entity (s.inFlight entity)) :
    s.watchAdoptedUpgrade entity = s ∨ ∃ k, s.marker entity.uid = some k ∧ s.inFlight entity = 0 ∧
      (∀ n task, s.tasks.get n = some task → ¬ task.AwaitsUpgrade entity) ∧
      s.watchAdoptedUpgrade entity = (s.writeData entity clearAdopted).spawnWatch entity k false ∧
      ∀ v, (s.watchAdoptedUpgrade entity).marker v = if v = entity.uid then none else s.marker v := by
  cases hk : (s.dataJob entity).updateAdoptedJobid with
  | none => exact Or.inl (by simp [State.watchAdoptedUpgrade,hk])
  | some k =>
    by_cases hi : s.inFlight entity = 0
    · obtain ⟨hcur,halone⟩ : s.data entity = .row s.gen ∧
          ∀ n < s.tasks.next, ∀ task ∈ s.tasks.get n, ¬ task.AwaitsUpgrade entity := by
        rcases hc with hc | hc | hc
        · simp [hk] at hc
        · exact absurd hi hc
        · exact hc
      have he : s.watchAdoptedUpgrade entity = (s.writeData entity clearAdopted).spawnWatch entity k false := by
        simp [State.watchAdoptedUpgrade,hk,hi]
      refine Or.inr ⟨k,?_,hi,fun n task hn => halone n (TaskTable.lt_next hn) task hn,he,fun v => ?_⟩
      · exact (s.published_of_current (f := Tracking.updateAdoptedJobid) rfl hcur).trans hk
      · unfold State.marker State.published
        rw [he,State.app_spawnWatch,State.app_writeData]
        by_cases hv : v = entity.uid
        · subst hv
          cases hr : s.app entity.uid <;> simp [hcur,clearAdopted]
        · simp [hv]
    · exact Or.inl (by simp [State.watchAdoptedUpgrade,hk,hi])

/-- An install that ends is not one that waits for `app.upgrade`. -/
theorem MayConsume.drop {s : State} {entity : Entity} (h : MayConsume s entity (s.inFlight entity - 1)) (n : ℕ) :
    MayConsume (s.dropInstall n entity) entity ((s.dropInstall n entity).inFlight entity) := by
  have hd : (s.dropInstall n entity).inFlight entity = s.inFlight entity - 1 := by simp [State.dropInstall]
  rw [hd]
  rcases h with h | h | ⟨hcur,halone⟩
  · exact Or.inl h
  · exact Or.inr (Or.inl h)
  · refine Or.inr (Or.inr ⟨hcur,fun m hm task htask => ?_⟩)
    rcases TaskTable.get_set_cases htask with ⟨_,he⟩ | ⟨_,he⟩
    · cases he
    · exact halone m hm task he

namespace Owned
variable {s t : State}

theorem watchAdopted (h : Owned s) {entity : Entity} (hc : MayConsume s entity (s.inFlight entity)) :
    Owned (s.watchAdoptedUpgrade entity) := by
  rcases consume_cases hc with he | ⟨k,hk,hi,halone,he,hm⟩
  · rwa [he]
  have hlog : (s.watchAdoptedUpgrade entity).log = .watchStarted s.tasks.next entity.uid k false :: s.log := by
    rw [he]
    simp [State.spawnWatch]
  have htasks : (s.watchAdoptedUpgrade entity).tasks = s.tasks.spawn
      (.watch entity k false (.waiting ((s.writeData entity clearAdopted).checkJob entity.uid k))) := by
    rw [he]
    simp [State.spawnWatch]
  have hjobs : (s.watchAdoptedUpgrade entity).jobApp = s.jobApp := by
    rw [he]
    exact State.jobApp_writeData s entity clearAdopted
  have old : ∀ {m y}, (s.watchAdoptedUpgrade entity).tasks.get m = some y →
      y = .watch entity k false (.waiting ((s.writeData entity clearAdopted).checkJob entity.uid k)) ∨ s.tasks.get m = some y :=
    fun hy => (TaskTable.get_spawn_cases (htasks ▸ hy)).imp (fun e => e.2) id
  have kept : ∀ {v k'}, k' ∈ (s.watchAdoptedUpgrade entity).marker v → v ≠ entity.uid ∧ k' ∈ s.marker v := by
    intro v k' hk'
    rw [hm] at hk'
    split at hk'
    · cases hk'
    · exact ⟨‹_›,hk'⟩
  -- neither the entity nor another object for its app awaits the job of an install
  have noInstall : ∀ {m e created}, s.tasks.get m = some (.install e (.upgrading created)) → e.uid ≠ entity.uid := by
    intro m e created hm' hu
    by_cases he : e = entity
    · subst he
      have hpos := TaskTable.count_pos (p := Task.isInstall e) hm' (by simp [Task.isInstall])
      rw [← h.inFlight e,hi] at hpos
      exact lt_irrefl 0 hpos
    · exact halone m _ hm' ⟨hu,he⟩
  exact {
    inFlight := fun v => by
      have hin : (s.watchAdoptedUpgrade entity).inFlight = s.inFlight := by
        rw [he]
        exact State.inFlight_writeData s entity clearAdopted
      rw [hin,htasks,TaskTable.count_spawn,h.inFlight v]
      simp [Task.isInstall]
    fresh := fun j hj => by
      have hn : (s.watchAdoptedUpgrade entity).nextJob = s.nextJob := by
        rw [he]
        exact State.nextJob_writeData s entity clearAdopted
      rw [hjobs,h.fresh j (hn ▸ hj)]
    markerApp := fun v k' hk' => by
      rw [hjobs]
      exact h.markerApp v k' (kept hk').2
    markerFree := fun v k' hk' e hel p hp => by
      rw [hlog] at hel
      rcases List.mem_cons.mp hel with rfl | hel
      · cases hp
      · exact h.markerFree v k' (kept hk').2 e hel p hp
    markerIdle := fun v k' hk' m y hy hw => by
      rcases old hy with rfl | hx
      · exact (kept hk').1 hw.1.symm
      · exact h.markerIdle v k' (kept hk').2 m y hx hw
    createdApp := fun m v k' hm' => by
      rw [hjobs]
      rcases old hm' with he' | hx
      · cases he'
      · exact h.createdApp m v k' hx
    createdFree := fun m v k' hm' e hel p hp => by
      rcases old hm' with he' | hx
      · cases he'
      rw [hlog] at hel
      rcases List.mem_cons.mp hel with rfl | hel
      · cases hp
        rintro rfl
        have hv : entity.uid = v.uid := Option.some.inj ((h.markerApp entity.uid _ hk).symm.trans (h.createdApp m v _ hx))
        exact noInstall hx hv.symm
      · exact h.createdFree m v k' hx e hel p hp
    startedApp := fun e hel p hp => by
      rw [hlog] at hel
      rw [hjobs]
      rcases List.mem_cons.mp hel with rfl | hel
      · cases hp
        exact h.markerApp entity.uid _ hk
      · exact h.startedApp e hel p hp
    own := fun d hd e hel p hp q hq => by
      rw [hlog] at hd hel
      rcases List.mem_cons.mp hd with rfl | hd
      · cases hp
      rcases List.mem_cons.mp hel with rfl | hel
      · cases hq
        exact h.markerFree entity.uid _ hk d hd p hp
      · exact h.own d hd e hel p hp q hq
    once := fun a b v k' x y hx hy hwx hwy => by
      rw [htasks] at hx hy
      rcases TaskTable.get_spawn_cases hx with ⟨rfl,rfl⟩ | hx'
      · obtain ⟨rfl,rfl,_⟩ := hwx
        rcases TaskTable.get_spawn_cases hy with ⟨rfl,_⟩ | hy'
        · rfl
        · exact absurd hwy (h.markerIdle entity.uid k hk b y hy')
      rcases TaskTable.get_spawn_cases hy with ⟨rfl,rfl⟩ | hy'
      · obtain ⟨rfl,rfl,_⟩ := hwy
        exact absurd hwx (h.markerIdle entity.uid k hk a x hx')
      · exact h.once a b v k' x y hx' hy' hwx hwy }

theorem marker_upgradeReturned (s : State) (n : ℕ) (entity : Entity) (job : JobId) (v : Uid) :
    (s.upgradeReturned n entity job).marker v = if s.data entity = .row s.gen ∧ v = entity.uid ∧ s.marker v = some job
      then none else s.marker v := by
  unfold State.marker State.published
  rw [State.app_upgradeReturned]
  by_cases hc : s.data entity = .row s.gen ∧ v = entity.uid
  · cases hr : s.app v with
    | none => simp [hc]
    | some row => by_cases hj : row.job.updateAdoptedJobid = some job <;> simp [hc,storeUpgradeJob,hj]
  · have hc' : ¬ (s.data entity = .row s.gen ∧ v = entity.uid ∧ (s.app v).bind (fun row =>
      row.job.updateAdoptedJobid) = some job) :=
      fun h => hc ⟨h.1,h.2.1⟩
    simp only [if_neg hc,if_neg hc']

theorem upgraded (h : Owned s) {n : ℕ} {entity : Entity} {job : JobId}
    (hn : s.tasks.get n = some (.install entity (.upgrading (some job))))
    (hk : s.marker entity.uid ≠ some job ∨ s.data entity = .row s.gen) : Owned (s.upgradeReturned n entity job) := by
  have hlog := s.log_upgradeReturned n entity job
  have hjobs : (s.upgradeReturned n entity job).jobApp = s.jobApp := by simp [State.upgradeReturned]
  have kept : ∀ {v k}, k ∈ (s.upgradeReturned n entity job).marker v → k ∈ s.marker v ∧ job ≠ k := by
    intro v k hk'
    rw [marker_upgradeReturned] at hk'
    split at hk'
    · cases hk'
    rename_i hc
    refine ⟨hk',?_⟩
    rintro rfl
    have hv : v = entity.uid := Option.some.inj ((h.markerApp v _ hk').symm.trans (h.createdApp n entity _ hn))
    subst hv
    rcases hk with hk | hk
    · exact hk hk'
    · exact hc ⟨hk,rfl,hk'⟩
  have old : ∀ {m y}, (s.upgradeReturned n entity job).tasks.get m = some y →
      y = .install entity (.sleeping job) ∨ s.tasks.get m = some y := by
    intro m y hy
    rw [State.tasks_upgradeReturned] at hy
    rcases TaskTable.get_set_cases hy with ⟨_,he⟩ | ⟨_,he⟩
    · exact Or.inl (Option.some.inj he).symm
    · exact Or.inr he
  exact {
    inFlight := fun v => by
      have hi : (s.upgradeReturned n entity job).inFlight = s.inFlight := by simp [State.upgradeReturned]
      have hc := TaskTable.count_set_of_eq (p := Task.isInstall v) (y := .install entity (.sleeping job)) hn rfl
      rw [hi,State.tasks_upgradeReturned,hc,h.inFlight]
    fresh := fun k hk' => by
      have hx : (s.upgradeReturned n entity job).nextJob = s.nextJob := by simp [State.upgradeReturned]
      rw [hjobs,h.fresh k (hx ▸ hk')]
    markerApp := fun v k hk' => by
      rw [hjobs]
      exact h.markerApp v k (kept hk').1
    markerFree := fun v k hk' e he p hp => by
      rw [hlog] at he
      rcases List.mem_cons.mp he with rfl | he
      · cases hp
        exact (kept hk').2
      · exact h.markerFree v k (kept hk').1 e he p hp
    markerIdle := fun v k hk' m y hy hw => by
      rcases old hy with rfl | hx
      · exact hw
      · exact h.markerIdle v k (kept hk').1 m y hx hw
    createdApp := fun m v k hm => by
      rw [hjobs]
      rcases old hm with he | hx
      · cases he
      · exact h.createdApp m v k hx
    createdFree := fun m v k hm e he p hp => by
      rcases old hm with hc | hx
      · cases hc
      rw [hlog] at he
      rcases List.mem_cons.mp he with rfl | he
      · cases hp
      · exact h.createdFree m v k hx e he p hp
    startedApp := fun e he p hp => by
      rw [hlog] at he
      rw [hjobs]
      rcases List.mem_cons.mp he with rfl | he
      · cases hp
      · exact h.startedApp e he p hp
    own := fun d hd e he p hp q hq => by
      rw [hlog] at hd he
      rcases List.mem_cons.mp he with rfl | he
      · cases hq
      rcases List.mem_cons.mp hd with rfl | hd
      · cases hp
        exact (h.createdFree n entity _ hn e he q hq).symm
      · exact h.own d hd e he p hp q hq
    once := fun a b v k x y hx hy hwx hwy => by
      rcases old hx with rfl | hx
      · exact hwx.elim
      rcases old hy with rfl | hy
      · exact hwy.elim
      exact h.once a b v k x y hx hy hwx hwy }

theorem step {a : Action} (h : Owned s) (hk : ClaimsOnce s a) (hst : Step s a t) : Owned t ∧ MarkerKept s a t := by
  have kept : Markers s t → MarkerKept s a t := by
    intro hm uid k hk' hl hne
    rcases hm.step uid with he | ⟨hnone,_⟩ | ⟨_,hmay,_,_⟩
    · exact absurd (he.trans hk') hne
    · simp [hnone] at hl
    · have hk'' : s.marker uid = some k := hk'
      simp [hmay.1] at hk''
  have plain : Plain a → Markers s t → Owned t ∧ MarkerKept s a t :=
    fun ha hm => ⟨h.plain hm (hst.taskMove ha),kept hm⟩
  have same : t.marker = s.marker → MarkerKept s a t :=
    fun he uid k hk' _ hne => absurd ((congrFun he uid).trans hk') hne
  have consumed : ∀ {b : State} {entity}, Owned b → b.marker = s.marker → b.log = s.log → b.tasks.next = s.tasks.next →
      MayConsume b entity (b.inFlight entity) → t = b.watchAdoptedUpgrade entity → Owned t ∧ MarkerKept s a t := by
    rintro b entity hb hmark hlog hnext hc rfl
    refine ⟨hb.watchAdopted hc,?_⟩
    rcases consume_cases hc with he | ⟨k,hk',_,_,he,hm⟩
    · exact same (by rw [he,hmark])
    · intro v k' hkv _ hne
      rw [hm v] at hne
      by_cases hv : v = entity.uid
      · subst hv
        have hkk : k = k' := Option.some.inj (hk'.symm.trans ((congrFun hmark entity.uid).trans hkv))
        subst hkk
        refine Or.inl ?_
        rw [he,← hlog,← hnext]
        simp [State.spawnWatch]
      · rw [if_neg hv,hmark] at hne
        exact absurd hkv hne
  cases hst.rowStep with
  | publish => exact plain trivial ((Markers.publish s _).frame (.setRefresh _ _))
  | adopt ht => exact plain trivial ((Markers.adopt hk ht).frame (.setRefresh _ _))
  | looked _ hf => exact plain trivial ((Markers.refreshJob s _ _ _).frame hf)
  | polled _ hf => exact plain trivial ((Markers.refreshJob s _ _ _).frame hf)
  | entityCreated _ => exact plain trivial (Markers.of_app rfl rfl ⟨rfl,rfl⟩ (fun _ he => Or.inl he))
  | @entityAdded _ entity he => exact consumed h rfl rfl rfl (hk entity he) rfl
  | @notifyEntity _ entity he =>
    exact consumed (b := s.refreshData entity) (h.congr rfl rfl rfl rfl rfl rfl) rfl rfl rfl (hk entity he) rfl
  | @upgraded n entity job hn =>
    simp only [ClaimsOnce,hn] at hk
    refine ⟨h.upgraded hn hk,fun v k hk' _ hne => ?_⟩
    rw [marker_upgradeReturned] at hne
    split at hne
    · rename_i hc
      have hkk : job = k := Option.some.inj (hc.2.2.symm.trans hk')
      subst hkk
      exact Or.inr ⟨n,entity,rfl,hc.2.1.symm,hn⟩
    · exact absurd hk' hne
  | @installEnd n entity hn =>
    simp only [ClaimsOnce,hn] at hk
    refine consumed (b := s.dropInstall n entity) (h.dropInstall hn) rfl rfl rfl (hk.drop n) rfl
  | @installCall _ entity _ => exact ⟨h.installCall entity,same rfl⟩
  | jobCreated hn => exact ⟨h.jobCreated hn,same rfl⟩
  | @jobCreatedElsewhere uid => exact ⟨h.newJob uid,same rfl⟩
  | started _ _ =>
    refine plain trivial (Markers.of_app rfl rfl ⟨rfl,rfl⟩ (fun e he => ?_))
    rcases List.mem_cons.mp he with rfl | he
    · exact Or.inr ⟨rfl,rfl⟩
    · exact Or.inl he
  | frame ha hf => exact plain ha ((Markers.of_app rfl rfl ⟨rfl,rfl⟩ (fun _ he => Or.inl he)).frame hf)

end Owned

/-- In every run whose steps meet `ClaimsOnce`, an adopted job of an app has at most one
watch, no job returned to an install is watched as adopted, and each further such step
changes a marker of a listed app only together with a claim of its job. -/
theorem adopted_once {s : State} (h : system.Reach ClaimsOnce s) : WatchedOnce s ∧ OwnNotAdopted s ∧
    ∀ a t, ClaimsOnce s a → system.step s a = some t → MarkerKept s a t := by
  have hinv : Owned s := h.invariant (fun s hi => by
    cases hi
    refine ⟨fun _ => rfl,fun _ _ => rfl,?_,?_,?_,?_,?_,?_,?_,?_⟩
    all_goals simp [State.initial,State.marker,State.published,State.app,OwnNotAdopted,WatchedOnce])
    (fun hi hk hs => (hi.step hk (Step.of_step hs)).1)
  exact ⟨hinv.once,hinv.own,fun a t hk hs => (hinv.step hk (Step.of_step hs)).2⟩

/-- A job found running before the entity existed is watched once it is added. -/
theorem adopted_once_of_entityAdded : ∃ s, (system.Reach ClaimsOnce s ∧
    s.tasks.get 0 = some (.watch ⟨"a",0⟩ 1 false (.waiting false))) ∧ WatchedOnce s := by
  obtain ⟨s,hr,hs⟩ := system.exists_reach_of_run ClaimsOnce rfl
    ([.jobCreatedElsewhere "a",.refreshStart,.appsAnswer [("a",.running)],
      .scanAnswer (some [⟨some 1,"app.upgrade",.running,some "a"⟩]),.entityCreated "a",.entityAdded "a"])
    (fun s => s.tasks.get 0 = some (.watch ⟨"a",0⟩ 1 false (.waiting false))) (by decide)
  exact ⟨s,⟨hr,hs⟩,(adopted_once hr).1⟩

/-- An install that fails after a publication consumes the marker in the replaced row; the
next notification consumes the carried one again. -/
theorem watched_twice_of_stale_row : ¬ ∀ s, system.Reachable s → WatchedOnce s ∧ OwnNotAdopted s ∧
    ∀ a t, system.step s a = some t → MarkerKept s a t := by
  intro hall
  obtain ⟨s,hr,h1,h2⟩ := system.exists_reach_of_run (fun _ _ => True) rfl
    ([.refreshStart,.appsAnswer [("a",.running)],.scanAnswer none,.entityCreated "a",.installCall "a",
      .jobCreatedElsewhere "a",.refreshStart,.appsAnswer [("a",.running)],
      .scanAnswer (some [⟨some 1,"app.upgrade",.running,some "a"⟩]),.lookupAnswer .failed,.notifyEntity "a",
      .upgradeFailed 0,.refreshStart,.appsAnswer [("a",.running)],.lookupAnswer .failed,.installEnd 0,
      .notifyEntity "a"])
    (fun s => s.tasks.get 1 = some (.watch ⟨"a",0⟩ 1 false (.waiting false)) ∧
      s.tasks.get 2 = some (.watch ⟨"a",0⟩ 1 false (.waiting false))) (by decide)
  have he := (hall s hr).1 1 2 "a" 1 _ _ h1 h2 ⟨rfl,rfl,rfl⟩ ⟨rfl,rfl,rfl⟩
  exact absurd he (by decide)
end TruenasCE.AppUpdate
