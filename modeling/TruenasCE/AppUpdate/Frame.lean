import TruenasCE.AppUpdate.Step

/-! # What each segment leaves unchanged

Most segments only move their own task and append to the history. Rows change in
five places: publication, adoption, a recorded poll, the stored upgrade job and
the consumed marker.
-/
namespace TruenasCE.AppUpdate
open Library

/-- Events that neither hand over a job, nor end the tracking of one, nor start an app or
the watch of an adopted job. -/
def Event.Quiet : Event → Prop
  | .upgraded _ _ => False
  | .ended _ _ => False
  | .startSent _ _ _ => False
  | .watchStarted _ _ _ restart => restart = true
  | _ => True

/-- Rows, entities, install counters and the jobs of the server are as before; the
history may have grown by quiet events. -/
structure Frame (s t : State) : Prop where
  maps : t.maps = s.maps
  gen : t.gen = s.gen
  data : t.data = s.data
  inFlight : t.inFlight = s.inFlight
  nextJob : t.nextJob = s.nextJob
  jobApp : t.jobApp = s.jobApp
  log : ∃ es, t.log = es ++ s.log ∧ ∀ e ∈ es, e.Quiet

namespace Frame
variable {s t u : State}

theorem refl (s : State) : Frame s s := ⟨rfl,rfl,rfl,rfl,rfl,rfl,[],rfl,by simp⟩

theorem trans (h : Frame s t) (h' : Frame t u) : Frame s u := by
  obtain ⟨es,hes,hq⟩ := h.log
  obtain ⟨es',hes',hq'⟩ := h'.log
  refine ⟨h'.maps.trans h.maps,h'.gen.trans h.gen,h'.data.trans h.data,h'.inFlight.trans h.inFlight,
    h'.nextJob.trans h.nextJob,h'.jobApp.trans h.jobApp,es' ++ es,by rw [hes',hes,List.append_assoc],?_⟩
  intro e he
  exact (List.mem_append.mp he).elim (hq' e) (hq e)

theorem app (h : Frame s t) : t.app = s.app := by simp [State.app,h.maps,h.gen]
theorem tracked (h : Frame s t) : t.tracked = s.tracked := by funext uid; simp [State.tracked,h.app]
theorem dataJob (h : Frame s t) : t.dataJob = s.dataJob := by
  funext uid; simp [State.dataJob,h.data,h.maps]

variable (s)
theorem emit {e : Event} (he : e.Quiet) : Frame s (s.emit e) :=
  ⟨rfl,rfl,rfl,rfl,rfl,rfl,[e],rfl,by simpa using he⟩
theorem setTask (n : ℕ) (o : Option Task) : Frame s (s.setTask n o) :=
  ⟨rfl,rfl,rfl,rfl,rfl,rfl,[],rfl,by simp⟩
theorem spawnWatch (entity : Entity) (job : JobId) : Frame s (s.spawnWatch entity job true) :=
  ⟨rfl,rfl,rfl,rfl,rfl,rfl,[_],rfl,by simp [Event.Quiet]⟩
theorem removeEntity (uid : Uid) : Frame s (s.removeEntity uid) :=
  ⟨rfl,rfl,rfl,rfl,rfl,rfl,[],rfl,by simp⟩
theorem setRefresh (r : Option RefreshPc) : Frame s { s with refresh := r } :=
  ⟨rfl,rfl,rfl,rfl,rfl,rfl,[],rfl,by simp⟩

theorem afterPoll (n : ℕ) (entity : Entity) (job : JobId) (late : Bool) : Frame s (s.afterPoll n entity job late) := by
  unfold State.afterPoll
  split
  · exact setTask s _ _
  split
  · exact setTask s _ _
  split
  · exact (spawnWatch s _ _).trans (setTask _ _ _)
  · exact setTask s _ _

theorem pollUpgradeJob (n : ℕ) (entity : Entity) (job : JobId) (late : Bool) :
    Frame s (s.pollUpgradeJob n entity job late) := by
  unfold State.pollUpgradeJob
  split
  · split
    · exact setTask s _ _
    · exact afterPoll s _ _ _ _
  · exact setTask s _ _

theorem emitLookup (job : JobId) (ans : LookupAnswer) : Frame s (s.emitLookup job ans) := by
  cases ans with
  | failed => exact refl s
  | missing => exact emit s trivial
  | job j => exact emit s trivial

theorem handleUpgradeOutcome (n : ℕ) (task : Task) (job : JobId) (skipped : Option RestartSkipped)
    (outcome : Outcome) : Frame s (s.handleUpgradeOutcome n task job skipped outcome) := by
  cases outcome with
  | unknown => exact setTask s _ _
  | known j =>
    simp only [State.handleUpgradeOutcome]
    split
    · exact (emit s (e := .succeeded _ _) trivial).trans (setTask _ _ _)
    · exact (emit s (e := .failureHandled _ _) trivial).trans (setTask _ _ _)

theorem watchFinished (n : ℕ) (entity : Entity) (job : JobId) (restart : Bool) :
    Frame s (s.watchFinished n entity job restart) := by
  unfold State.watchFinished
  split <;> exact setTask s _ _

theorem watchResolved (n : ℕ) (entity : Entity) (job : JobId) (restart : Bool) (skipped : Option RestartSkipped)
    (outcome : Outcome) : Frame s (s.watchResolved n entity job restart skipped outcome) := by
  cases outcome with
  | unknown =>
    simp only [State.watchResolved]
    split
    · exact setTask s _ _
    · exact handleUpgradeOutcome s _ _ _ _ _
  | known j =>
    simp only [State.watchResolved]
    split
    · exact setTask s _ _
    split
    · exact setTask s _ _
    · exact handleUpgradeOutcome s _ _ _ _ _

theorem pollAnswered (n : ℕ) (entity : Entity) (job k : JobId) (ans : LookupAnswer) (late : Bool) :
    Frame (s.refreshAppUpdateJob entity.uid k ans).1 (s.pollAnswered n entity job k ans late) := by
  unfold State.pollAnswered
  obtain ⟨t,o⟩ := s.refreshAppUpdateJob entity.uid k ans
  cases o with
  | none => exact afterPoll t _ _ _ _
  | some j =>
    simp only
    split
    · exact afterPoll t _ _ _ _
    · exact setTask t _ _

end Frame

/-- An action that starts no install, creates no job for one and consumes no marker. -/
def Plain : Action → Prop
  | .entityAdded _ => False
  | .notifyEntity _ => False
  | .installCall _ => False
  | .jobCreated _ => False
  | .installEnd _ => False
  | _ => True

/-- The task awaits the state of its app after `job` has failed. -/
def Task.Inspecting (job : JobId) : Task → Prop
  | .install _ (.inspecting k) => k = job
  | .watch _ k _ .inspecting => k = job
  | _ => False

/-- The steps that change a row, an entity's reference, a counter or the jobs of the
server, or that start an app, each with what it does; every other step is framed. -/
inductive RowStep (s : State) : Action → State → Prop
  | publish {listing r} : RowStep s (.appsAnswer listing) { s.publish listing with refresh := r }
  | adopt {jobs r} : (∀ job ∈ jobs, s.Truthful job) →
      RowStep s (.scanAnswer (some jobs)) { s.adoptRunningJobs jobs with refresh := r }
  | looked {uid k rest ans t} : s.refresh = some (.lookingUp uid k rest) →
      Frame (s.refreshAppUpdateJob uid k ans).1 t → RowStep s (.lookupAnswer ans) t
  | polled {n entity job k ans late t} : s.tasks.get n = some (.install entity (.polling job k)) →
      Frame (s.refreshAppUpdateJob entity.uid k ans).1 t → RowStep s (.pollAnswer n ans late) t
  | entityCreated {uid} : s.loaded uid = none → RowStep s (.entityCreated uid) (s.createEntity uid)
  | entityAdded {uid entity} : s.platformEntity uid = some entity →
      RowStep s (.entityAdded uid) (s.watchAdoptedUpgrade entity)
  | notifyEntity {uid entity} : s.platformEntity uid = some entity →
      RowStep s (.notifyEntity uid) ((s.refreshData entity).watchAdoptedUpgrade entity)
  | upgraded {n entity job} : s.tasks.get n = some (.install entity (.upgrading (some job))) →
      RowStep s (.upgradeAnswer n) (s.upgradeReturned n entity job)
  | installEnd {n entity} : s.tasks.get n = some (.install entity .finishing) →
      RowStep s (.installEnd n) (s.endInstall n entity)
  | installCall {uid entity} : s.platformEntity uid = some entity → RowStep s (.installCall uid) (s.startInstall entity)
  | jobCreated {n entity} : s.tasks.get n = some (.install entity (.upgrading none)) → RowStep s (.jobCreated n)
        ((s.newJob entity.uid).setTask n (some (.install entity (.upgrading (some s.nextJob)))))
  | jobCreatedElsewhere {uid} : RowStep s (.jobCreatedElsewhere uid) (s.newJob uid)
  | started {n state task job} : s.tasks.get n = some task → task.Inspecting job →
      RowStep s (.instanceAnswer n state)
        ((s.emit (.startSent n task.uid job)).setTask n (some (task.startingApp job)))
  | frame {a t} : Plain a → Frame s t → RowStep s a t

theorem RowStep.restartAfterFailedUpgrade {s : State} {n : ℕ} {task : Task} {job : JobId}
    (hn : s.tasks.get n = some task) (ht : task.Inspecting job) (state : Option AppState) :
    RowStep s (.instanceAnswer n state) (s.restartAfterFailedUpgrade n task job state) := by
  cases state with
  | none => exact .frame trivial (.setTask s _ _)
  | some state =>
    simp only [State.restartAfterFailedUpgrade]
    split
    · exact .started hn ht
    · exact .frame trivial (.setTask s _ _)

theorem Step.rowStep {s t : State} {a : Action} (h : Step s a t) : RowStep s a t := by
  cases h with
  | refreshStart _ => exact .frame trivial (.setRefresh s _)
  | refreshAborted => exact .frame trivial (.setRefresh s _)
  | appsAnswer _ => exact .publish
  | scanFailed => exact .frame trivial (.setRefresh s _)
  | scanAnswer h => exact .adopt h
  | lookupAnswer h => exact .looked h (.setRefresh _ _)
  | entityCreated h => exact .entityCreated h
  | entityRemoved => exact .frame trivial (.removeEntity s _)
  | entityAdded h => exact .entityAdded h
  | notifyEntity h => exact .notifyEntity h
  | notifyWatch _ => exact .frame trivial (.setTask s _ _)
  | installCall h => exact .installCall h
  | jobCreated h => exact .jobCreated h
  | jobCreatedElsewhere => exact .jobCreatedElsewhere
  | upgradeFailed _ => exact .frame trivial (.setTask s _ _)
  | upgradeAnswer h => exact .upgraded h
  | wake _ => exact .frame trivial (.pollUpgradeJob s _ _ _ _)
  | pollAnswer h => exact .polled h (.pollAnswered s _ _ _ _ _ _)
  | installResolved _ => exact .frame trivial ((Frame.emitLookup s _ _).trans (.setTask _ _ _))
  | watchResolved _ _ => exact .frame trivial ((Frame.emitLookup s _ _).trans (.watchResolved _ _ _ _ _ _ _))
  | watchUnresolved _ => exact .frame trivial ((Frame.emitLookup s _ _).trans (.setTask _ _ _))
  | handoverDone _ => exact .frame trivial (.setTask s _ _)
  | refreshDone _ => exact .frame trivial (.handleUpgradeOutcome s _ _ _ _ _)
  | installInspected h => exact .restartAfterFailedUpgrade h rfl _
  | watchInspected h => exact .restartAfterFailedUpgrade h rfl _
  | installStarted _ => exact .frame trivial (.setTask s _ _)
  | watchStarted _ => exact .frame trivial (.setTask s _ _)
  | taskAborted _ => exact .frame trivial (.setTask s _ _)
  | installEnd h => exact .installEnd h
  | watchResume _ => exact .frame trivial (.watchFinished s _ _ _ _)
  | watchTimeout _ => exact .frame trivial (.setTask s _ _)

namespace State
variable (s : State)

@[simp] theorem app_spawnWatch (entity : Entity) (job : JobId) (restart : Bool) :
    (s.spawnWatch entity job restart).app = s.app := rfl

theorem app_watchAdoptedUpgrade (entity : Entity) (u : Uid) : (s.watchAdoptedUpgrade entity).app u = s.app u ∨
    (s.watchAdoptedUpgrade entity).app u = (s.app u).map (fun row => { row with job := clearAdopted row.job }) := by
  unfold watchAdoptedUpgrade
  split
  · exact Or.inl rfl
  split
  · exact Or.inl rfl
  · rw [app_spawnWatch,app_writeData]
    split
    · exact Or.inr rfl
    · exact Or.inl rfl

@[simp] theorem listed_watchAdoptedUpgrade (entity : Entity) (u : Uid) :
    ((s.watchAdoptedUpgrade entity).app u).isSome = (s.app u).isSome := by
  rcases s.app_watchAdoptedUpgrade entity u with h | h <;> simp [h]

@[simp] theorem tracked_watchAdoptedUpgrade (entity : Entity) :
    (s.watchAdoptedUpgrade entity).tracked = s.tracked := by
  funext u
  rcases s.app_watchAdoptedUpgrade entity u with h | h
  · simp [tracked,h]
  · cases hr : s.app u <;> simp [tracked,h,hr,clearAdopted]

theorem tasks_watchAdoptedUpgrade (entity : Entity) : (s.watchAdoptedUpgrade entity).tasks = s.tasks ∨
    ∃ job finished, (s.watchAdoptedUpgrade entity).tasks =
      s.tasks.spawn (.watch entity job false (.waiting finished)) := by
  unfold watchAdoptedUpgrade
  split
  · exact Or.inl rfl
  split
  · exact Or.inl rfl
  · rename_i job _ _
    exact Or.inr ⟨job,_,by simp only [spawnWatch,tasks_writeData]; rfl⟩

theorem log_watchAdoptedUpgrade (entity : Entity) : ∃ es, (s.watchAdoptedUpgrade entity).log = es ++ s.log ∧
    ∀ e ∈ es, ∃ job, e = .watchStarted s.tasks.next entity.uid job false := by
  unfold watchAdoptedUpgrade
  split
  · exact ⟨[],rfl,by simp⟩
  split
  · exact ⟨[],rfl,by simp⟩
  · exact ⟨[.watchStarted s.tasks.next entity.uid _ false],by simp only [spawnWatch,tasks_writeData,log_writeData]; rfl,
      by simp⟩

theorem tasks_upgradeReturned (n : ℕ) (entity : Entity) (job : JobId) :
    (s.upgradeReturned n entity job).tasks = s.tasks.set n (some (.install entity (.sleeping job))) := by
  simp [upgradeReturned]

theorem log_upgradeReturned (n : ℕ) (entity : Entity) (job : JobId) :
    (s.upgradeReturned n entity job).log = .upgraded entity.uid job :: s.log := by
  simp [upgradeReturned]

/-- The stored job reaches `ds["app"]` when `_data` is the published row. -/
theorem app_upgradeReturned (n : ℕ) (entity : Entity) (job : JobId) (u : Uid) :
    (s.upgradeReturned n entity job).app u = if s.data entity = .row s.gen ∧ u = entity.uid
      then (s.app u).map (fun row => { row with job := storeUpgradeJob job row.job }) else s.app u :=
  app_writeData (s.emit (.upgraded entity.uid job)) entity (storeUpgradeJob job) u

@[simp] theorem tasks_emitLookup (job : JobId) (ans : LookupAnswer) :
    (s.emitLookup job ans).tasks = s.tasks := by cases ans <;> rfl

theorem afterPoll_cases (n : ℕ) (entity : Entity) (job : JobId) (late : Bool) :
    (∃ pc, s.afterPoll n entity job late = s.setTask n (some (.install entity pc)) ∧
      (pc = .resolving job ∨ pc = .sleeping job ∨ pc = .finishing)) ∨
    s.afterPoll n entity job late = (s.spawnWatch entity job true).setTask n (some (.install entity (.handedOver job))) := by
  unfold afterPoll
  split
  · exact Or.inl ⟨_,rfl,by simp⟩
  split
  · exact Or.inl ⟨_,rfl,by simp⟩
  split
  · exact Or.inr rfl
  · exact Or.inl ⟨_,rfl,by simp⟩

theorem pollUpgradeJob_cases (n : ℕ) (entity : Entity) (job : JobId) (late : Bool) :
    (∃ pc, s.pollUpgradeJob n entity job late = s.setTask n (some (.install entity pc)) ∧
      (pc = .finishing ∨ ∃ k, pc = .polling job k)) ∨
    s.pollUpgradeJob n entity job late = s.afterPoll n entity job late := by
  unfold pollUpgradeJob
  split
  · split
    · exact Or.inl ⟨_,rfl,Or.inr ⟨_,rfl⟩⟩
    · exact Or.inr rfl
  · exact Or.inl ⟨_,rfl,Or.inl rfl⟩

theorem pollAnswered_cases (n : ℕ) (entity : Entity) (job k : JobId) (ans : LookupAnswer) (late : Bool) :
    (∃ j, ans = .job j ∧ ¬ j.state.Active ∧ s.pollAnswered n entity job k ans late =
      (s.refreshAppUpdateJob entity.uid k ans).1.setTask n (some (.install entity (.refreshing job (.known j))))) ∨
    s.pollAnswered n entity job k ans late = (s.refreshAppUpdateJob entity.uid k ans).1.afterPoll n entity job late := by
  have hsnd := s.refreshAppUpdateJob_snd entity.uid k ans
  unfold pollAnswered
  generalize s.refreshAppUpdateJob entity.uid k ans = p at hsnd
  obtain ⟨t,o⟩ := p
  cases ans with
  | failed =>
    cases hsnd
    exact Or.inr rfl
  | missing =>
    cases hsnd
    exact Or.inr rfl
  | job j =>
    cases hsnd
    by_cases ha : j.state.Active
    · exact Or.inr (by simp [ha])
    · exact Or.inl ⟨j,rfl,ha,by simp [ha]⟩

theorem tasks_handleUpgradeOutcome (n : ℕ) (task : Task) (job : JobId) (skipped : Option RestartSkipped)
    (outcome : Outcome) :
    (s.handleUpgradeOutcome n task job skipped outcome).tasks = s.tasks.set n task.returned ∨
    ((s.handleUpgradeOutcome n task job skipped outcome).tasks =
      s.tasks.set n (some (task.inspectingInstance job)) ∧ skipped = none) := by
  cases outcome with
  | unknown => exact Or.inl rfl
  | known j =>
    simp only [handleUpgradeOutcome]
    split
    · exact Or.inl rfl
    split
    · exact Or.inr ⟨rfl,‹_›⟩
    · exact Or.inl rfl

theorem tasks_restartAfterFailedUpgrade (n : ℕ) (task : Task) (job : JobId) (state : Option AppState) :
    (s.restartAfterFailedUpgrade n task job state).tasks = s.tasks.set n task.returned ∨
    (s.restartAfterFailedUpgrade n task job state).tasks = s.tasks.set n (some (task.startingApp job)) := by
  cases state with
  | none => exact Or.inl rfl
  | some state =>
    simp only [restartAfterFailedUpgrade]
    split
    · exact Or.inr rfl
    · exact Or.inl rfl

/-- A watch that learnt the outcome is gone, unless the outcome is a failure to be
followed by a restart. -/
theorem tasks_watchResolved (n : ℕ) (entity : Entity) (job : JobId) (restart : Bool)
    (skipped : Option RestartSkipped) (outcome : Outcome) :
    ∃ o, (s.watchResolved n entity job restart skipped outcome).tasks = s.tasks.set n o ∧
      ∀ u ∈ o, u = .watch entity job restart .inspecting ∧ skipped = none ∧ s.newerEndedJob entity job = false := by
  have handled : s.newerEndedJob entity job = false → ∃ o,
      (s.handleUpgradeOutcome n (.watch entity job restart (.resolving skipped)) job skipped outcome).tasks =
        s.tasks.set n o ∧
      ∀ u ∈ o, u = .watch entity job restart .inspecting ∧ skipped = none ∧ s.newerEndedJob entity job = false := by
    intro he
    rcases s.tasks_handleUpgradeOutcome n (.watch entity job restart (.resolving skipped)) job skipped outcome with
      ho | ⟨ho,hs⟩
    · exact ⟨none,ho,by simp⟩
    · refine ⟨_,ho,fun u hm => ?_⟩
      cases hm
      exact ⟨rfl,hs,he⟩
  cases outcome with
  | unknown =>
    simp only [watchResolved]
    split
    · exact ⟨none,rfl,by simp⟩
    · exact handled (Bool.eq_false_iff.mpr ‹_›)
  | known j =>
    simp only [watchResolved]
    split
    · exact ⟨none,rfl,by simp⟩
    split
    · exact ⟨none,rfl,by simp⟩
    · exact handled (Bool.eq_false_iff.mpr ‹_›)

theorem published_of_current {f : Tracking → Option JobId} (hf : f {} = none) {entity : Entity}
    (h : s.data entity = .row s.gen) : s.published f entity.uid = f (s.dataJob entity) := by
  unfold published dataJob
  rw [h]
  cases hr : s.app entity.uid with
  | none => simp [show s.maps s.gen entity.uid = none from hr,hf]
  | some row => simp [show s.maps s.gen entity.uid = some row from hr]

end State
end TruenasCE.AppUpdate
