import TruenasCE.AppUpdate.Entity

/-! # The transition system of app updates

One action is what happens between two suspension points: an answer arrives, a
timer fires, a listener is called or Home Assistant calls the entity. Any action
that is possible may come next, so runs range over all interleavings of polls,
pushes, installs and watches.
-/
namespace TruenasCE.AppUpdate
open Library

inductive Action
  | refreshStart
  | refreshAborted
  | appsAnswer (listing : List (Uid × AppState))
  | scanAnswer (jobs : Option (List JobRecord))
  | lookupAnswer (ans : LookupAnswer)
  | entityCreated (uid : Uid)
  | entityRemoved (uid : Uid)
  | entityAdded (uid : Uid)
  | notifyEntity (uid : Uid)
  | notifyWatch (n : ℕ)
  | installCall (uid : Uid)
  | jobCreated (n : ℕ)
  | jobCreatedElsewhere (uid : Uid)
  | upgradeFailed (n : ℕ)
  | upgradeAnswer (n : ℕ)
  | wake (n : ℕ) (late : Bool)
  | pollAnswer (n : ℕ) (ans : LookupAnswer) (late : Bool)
  | resolveAnswer (n : ℕ) (ans : LookupAnswer)
  | refreshDone (n : ℕ)
  | instanceAnswer (n : ℕ) (state : Option AppState)
  | startAnswer (n : ℕ)
  | taskAborted (n : ℕ)
  | installEnd (n : ℕ)
  | watchResume (n : ℕ)
  | watchTimeout (n : ℕ)
  deriving DecidableEq, Repr

namespace State
variable (s : State)

/-- A scanned job is an upgrade of the app TrueNAS created it for. -/
def Truthful (job : JobRecord) : Prop :=
  ∀ uid ∈ upgradeJobApp job, job.id.bind s.jobApp = some uid

instance (job : JobRecord) : Decidable (s.Truthful job) :=
  inferInstanceAs (Decidable (∀ uid ∈ upgradeJobApp job, job.id.bind s.jobApp = some uid))

def newJob (uid : Uid) : State :=
  { s with nextJob := s.nextJob + 1, jobApp := Function.update s.jobApp s.nextJob (some uid) }

def platformEntity (uid : Uid) : Option Entity := (s.loaded uid).map (fun number => ⟨uid,number⟩)

def createEntity (uid : Uid) : State :=
  { s.refreshData ⟨uid,s.made uid⟩ with
    made := Function.update s.made uid (s.made uid + 1)
    loaded := Function.update s.loaded uid (some (s.made uid)) }

def removeEntity (uid : Uid) : State := { s with loaded := Function.update s.loaded uid none }

/-- `async_install` passes its checks and calls `app.upgrade`. -/
def startInstall (entity : Entity) : State :=
  { s with
    inFlight := Function.update s.inFlight entity (s.inFlight entity + 1)
    tasks := s.tasks.spawn (.install entity (.upgrading none)) }

def dropInstall (n : ℕ) (entity : Entity) : State :=
  { s.setTask n none with inFlight := Function.update s.inFlight entity (s.inFlight entity - 1) }

def endInstall (n : ℕ) (entity : Entity) : State := (s.dropInstall n entity).watchAdoptedUpgrade entity

/-- `_async_install_upgrade` once `app.upgrade` has returned `job`. -/
def upgradeReturned (n : ℕ) (entity : Entity) (job : JobId) : State :=
  ((s.emit (.upgraded entity.uid job)).writeData entity (storeUpgradeJob job)).setTask n
    (some (.install entity (.sleeping job)))

def step : Action → Option State
  | .refreshStart => if s.refresh = none then some { s with refresh := some .gettingApps } else none
  | .refreshAborted => if s.refresh = none then none else some { s with refresh := none }
  | .appsAnswer listing =>
    if s.refresh = some .gettingApps then
      let t := s.publish listing
      let listed := listing.map Prod.fst
      some { t with refresh := if t.adopted then t.nextLookup listed else some (.scanning listed) }
    else none
  | .scanAnswer jobs =>
    match s.refresh,jobs with
    | some (.scanning listed),none => some { s with refresh := s.nextLookup listed }
    | some (.scanning listed),some jobs =>
      if ∀ job ∈ jobs, s.Truthful job then
        let t := s.adoptRunningJobs jobs
        some { t with refresh := t.nextLookup listed }
      else none
    | _,_ => none
  | .lookupAnswer ans =>
    match s.refresh with
    | some (.lookingUp uid k rest) =>
      let t := (s.refreshAppUpdateJob uid k ans).1
      some { t with refresh := t.nextLookup rest }
    | _ => none
  | .entityCreated uid => if s.loaded uid = none then some (s.createEntity uid) else none
  | .entityRemoved uid => if s.loaded uid = none then none else some (s.removeEntity uid)
  | .entityAdded uid => (s.platformEntity uid).map (fun entity => s.watchAdoptedUpgrade entity)
  | .notifyEntity uid =>
    (s.platformEntity uid).map (fun entity => (s.refreshData entity).watchAdoptedUpgrade entity)
  | .notifyWatch n =>
    match s.tasks.get n with
    | some (.watch entity job restart (.waiting finished)) =>
      some (s.setTask n (some (.watch entity job restart (.waiting (finished || s.checkJob entity.uid job)))))
    | _ => none
  | .installCall uid =>
    match s.platformEntity uid with
    | some entity =>
      if s.hasId entity ∧ (s.app uid).any (fun row => decide (row.state = .running)) then
        some (s.startInstall entity)
      else none
    | none => none
  | .jobCreated n =>
    match s.tasks.get n with
    | some (.install entity (.upgrading none)) =>
      some ((s.newJob entity.uid).setTask n (some (.install entity (.upgrading (some s.nextJob)))))
    | _ => none
  | .jobCreatedElsewhere uid => some (s.newJob uid)
  | .upgradeFailed n =>
    match s.tasks.get n with
    | some (.install entity (.upgrading _)) => some (s.setTask n (some (.install entity .finishing)))
    | _ => none
  | .upgradeAnswer n =>
    match s.tasks.get n with
    | some (.install entity (.upgrading (some job))) => some (s.upgradeReturned n entity job)
    | _ => none
  | .wake n late =>
    match s.tasks.get n with
    | some (.install entity (.sleeping job)) => some (s.pollUpgradeJob n entity job late)
    | _ => none
  | .pollAnswer n ans late =>
    match s.tasks.get n with
    | some (.install entity (.polling job k)) => some (s.pollAnswered n entity job k ans late)
    | _ => none
  | .resolveAnswer n ans =>
    match s.tasks.get n with
    | some (.install entity (.resolving job)) =>
      let t := s.emitLookup job ans
      some (t.setTask n (some (.install entity
        (((t.resolveUntrackedJob entity job ans).map (InstallPc.refreshing job)).getD .finishing))))
    | some (.watch entity job restart (.resolving skipped)) =>
      let t := s.emitLookup job ans
      match t.resolveUntrackedJob entity job ans with
      | some outcome => some (t.watchResolved n entity job restart skipped outcome)
      | none => some (t.setTask n none)
    | _ => none
  | .refreshDone n =>
    match s.tasks.get n with
    | some (.install entity (.handedOver _)) => some (s.setTask n (some (.install entity .finishing)))
    | some (.install entity (.refreshing job outcome)) =>
      some (s.handleUpgradeOutcome n (.install entity (.refreshing job outcome)) job none outcome)
    | _ => none
  | .instanceAnswer n state =>
    match s.tasks.get n with
    | some (.install entity (.inspecting job)) =>
      some (s.restartAfterFailedUpgrade n (.install entity (.inspecting job)) job state)
    | some (.watch entity job restart .inspecting) =>
      some (s.restartAfterFailedUpgrade n (.watch entity job restart .inspecting) job state)
    | _ => none
  | .startAnswer n =>
    match s.tasks.get n with
    | some (.install entity (.starting _)) => some (s.setTask n (some (.install entity .finishing)))
    | some (.watch _ _ _ .starting) => some (s.setTask n none)
    | _ => none
  | .taskAborted n => (s.tasks.get n).map (fun task => s.setTask n task.returned)
  | .installEnd n =>
    match s.tasks.get n with
    | some (.install entity .finishing) => some (s.endInstall n entity)
    | _ => none
  | .watchResume n =>
    match s.tasks.get n with
    | some (.watch entity job restart (.waiting true)) => some (s.watchFinished n entity job restart)
    | _ => none
  | .watchTimeout n =>
    match s.tasks.get n with
    | some (.watch _ _ _ (.waiting _)) => some (s.setTask n none)
    | _ => none

end State

def system : System State Action where
  init s := s = State.initial
  step := State.step

/-- What one action can do, branch by branch. -/
inductive Step (s : State) : Action → State → Prop
  | refreshStart : s.refresh = none → Step s .refreshStart { s with refresh := some .gettingApps }
  | refreshAborted : Step s .refreshAborted { s with refresh := none }
  | appsAnswer {listing r} : s.refresh = some .gettingApps →
      Step s (.appsAnswer listing) { s.publish listing with refresh := r }
  | scanFailed {r} : Step s (.scanAnswer none) { s with refresh := r }
  | scanAnswer {jobs r} : (∀ job ∈ jobs, s.Truthful job) →
      Step s (.scanAnswer (some jobs)) { s.adoptRunningJobs jobs with refresh := r }
  | lookupAnswer {uid k rest ans r} : s.refresh = some (.lookingUp uid k rest) →
      Step s (.lookupAnswer ans) { (s.refreshAppUpdateJob uid k ans).1 with refresh := r }
  | entityCreated {uid} : s.loaded uid = none → Step s (.entityCreated uid) (s.createEntity uid)
  | entityRemoved {uid} : Step s (.entityRemoved uid) (s.removeEntity uid)
  | entityAdded {uid entity} : s.platformEntity uid = some entity →
      Step s (.entityAdded uid) (s.watchAdoptedUpgrade entity)
  | notifyEntity {uid entity} : s.platformEntity uid = some entity →
      Step s (.notifyEntity uid) ((s.refreshData entity).watchAdoptedUpgrade entity)
  | notifyWatch {n entity job restart finished} :
      s.tasks.get n = some (.watch entity job restart (.waiting finished)) → Step s (.notifyWatch n)
        (s.setTask n (some (.watch entity job restart (.waiting (finished || s.checkJob entity.uid job)))))
  | installCall {uid entity} : s.platformEntity uid = some entity → Step s (.installCall uid) (s.startInstall entity)
  | jobCreated {n entity} : s.tasks.get n = some (.install entity (.upgrading none)) → Step s (.jobCreated n)
        ((s.newJob entity.uid).setTask n (some (.install entity (.upgrading (some s.nextJob)))))
  | jobCreatedElsewhere {uid} : Step s (.jobCreatedElsewhere uid) (s.newJob uid)
  | upgradeFailed {n entity created} : s.tasks.get n = some (.install entity (.upgrading created)) →
      Step s (.upgradeFailed n) (s.setTask n (some (.install entity .finishing)))
  | upgradeAnswer {n entity job} : s.tasks.get n = some (.install entity (.upgrading (some job))) →
      Step s (.upgradeAnswer n) (s.upgradeReturned n entity job)
  | wake {n entity job late} : s.tasks.get n = some (.install entity (.sleeping job)) →
      Step s (.wake n late) (s.pollUpgradeJob n entity job late)
  | pollAnswer {n entity job k ans late} : s.tasks.get n = some (.install entity (.polling job k)) →
      Step s (.pollAnswer n ans late) (s.pollAnswered n entity job k ans late)
  | installResolved {n entity job ans} : s.tasks.get n = some (.install entity (.resolving job)) →
      Step s (.resolveAnswer n ans) ((s.emitLookup job ans).setTask n (some (.install entity
        ((((s.emitLookup job ans).resolveUntrackedJob entity job ans).map (InstallPc.refreshing job)).getD
          .finishing))))
  | watchResolved {n entity job restart skipped ans outcome} :
      s.tasks.get n = some (.watch entity job restart (.resolving skipped)) →
      (s.emitLookup job ans).resolveUntrackedJob entity job ans = some outcome →
      Step s (.resolveAnswer n ans) ((s.emitLookup job ans).watchResolved n entity job restart skipped outcome)
  | watchUnresolved {n entity job restart skipped ans} :
      s.tasks.get n = some (.watch entity job restart (.resolving skipped)) →
      Step s (.resolveAnswer n ans) ((s.emitLookup job ans).setTask n none)
  | handoverDone {n entity job} : s.tasks.get n = some (.install entity (.handedOver job)) →
      Step s (.refreshDone n) (s.setTask n (some (.install entity .finishing)))
  | refreshDone {n entity job outcome} : s.tasks.get n = some (.install entity (.refreshing job outcome)) →
      Step s (.refreshDone n)
        (s.handleUpgradeOutcome n (.install entity (.refreshing job outcome)) job none outcome)
  | installInspected {n entity job state} : s.tasks.get n = some (.install entity (.inspecting job)) →
      Step s (.instanceAnswer n state)
        (s.restartAfterFailedUpgrade n (.install entity (.inspecting job)) job state)
  | watchInspected {n entity job restart state} :
      s.tasks.get n = some (.watch entity job restart .inspecting) →
      Step s (.instanceAnswer n state)
        (s.restartAfterFailedUpgrade n (.watch entity job restart .inspecting) job state)
  | installStarted {n entity job} : s.tasks.get n = some (.install entity (.starting job)) →
      Step s (.startAnswer n) (s.setTask n (some (.install entity .finishing)))
  | watchStarted {n entity job restart} : s.tasks.get n = some (.watch entity job restart .starting) →
      Step s (.startAnswer n) (s.setTask n none)
  | taskAborted {n task} : s.tasks.get n = some task →
      Step s (.taskAborted n) (s.setTask n task.returned)
  | installEnd {n entity} : s.tasks.get n = some (.install entity .finishing) →
      Step s (.installEnd n) (s.endInstall n entity)
  | watchResume {n entity job restart} : s.tasks.get n = some (.watch entity job restart (.waiting true)) →
      Step s (.watchResume n) (s.watchFinished n entity job restart)
  | watchTimeout {n entity job restart finished} :
      s.tasks.get n = some (.watch entity job restart (.waiting finished)) →
      Step s (.watchTimeout n) (s.setTask n none)

/-- Inversion of the executable step. -/
theorem Step.of_step {s t : State} {a : Action} (h : system.step s a = some t) : Step s a t := by
  change s.step a = some t at h
  cases a with
  | refreshAborted =>
    simp only [State.step] at h
    split at h <;> cases h
    exact .refreshAborted
  | taskAborted n =>
    obtain ⟨task,hn,rfl⟩ := Option.map_eq_some_iff.mp h
    exact .taskAborted hn
  | entityRemoved uid =>
    simp only [State.step] at h
    split at h <;> cases h
    exact .entityRemoved
  | entityAdded uid =>
    obtain ⟨entity,he,rfl⟩ := Option.map_eq_some_iff.mp h
    exact .entityAdded he
  | notifyEntity uid =>
    obtain ⟨entity,he,rfl⟩ := Option.map_eq_some_iff.mp h
    exact .notifyEntity he
  | _ =>
    simp only [State.step] at h
    repeat' split at h
    all_goals cases h
    all_goals first
      | exact .refreshStart ‹_›
      | exact .appsAnswer ‹_›
      | exact .scanFailed
      | exact .scanAnswer ‹_›
      | exact .lookupAnswer ‹_›
      | exact .entityCreated ‹_›
      | exact .installCall ‹_›
      | exact .notifyWatch ‹_›
      | exact .jobCreated ‹_›
      | exact .jobCreatedElsewhere
      | exact .upgradeFailed ‹_›
      | exact .upgradeAnswer ‹_›
      | exact .wake ‹_›
      | exact .pollAnswer ‹_›
      | exact .installResolved ‹_›
      | exact .watchResolved ‹_› ‹_›
      | exact .watchUnresolved ‹_›
      | exact .handoverDone ‹_›
      | exact .refreshDone ‹_›
      | exact .installInspected ‹_›
      | exact .watchInspected ‹_›
      | exact .installStarted ‹_›
      | exact .watchStarted ‹_›
      | exact .installEnd ‹_›
      | exact .watchResume ‹_›
      | exact .watchTimeout ‹_›
end TruenasCE.AppUpdate
