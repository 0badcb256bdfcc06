import TruenasCE.AppUpdate.Frame

/-! # What an upgrade's outcome is decided by

Every decision about a job (it succeeded, its failure is handled, its app is
started again) is checked against the reports about that very job. The recorded
final state in a row is always evidence about the job named next to it; the
install loop, however, follows whichever job its row tracks, its direct lookup does
not ask whether the job is still running, and a looked-up row without a state counts
as a failure.
-/
namespace TruenasCE.AppUpdate
open Library

/-- What an event says about the state of `job`. -/
def Event.stateOf (job : JobId) : Event → Option JobState
  | .reported k (.state s) => if k = job then some s else none
  | _ => none

/-- The state `job` was last observed in; the history starts with its newest event. -/
def lastState (job : JobId) (log : List Event) : Option JobState := log.findSome? (Event.stateOf job)

/-- `job` was observed in a state that is not an active one. -/
def Ended (job : JobId) (log : List Event) : Prop :=
  ∃ e ∈ log, ∃ s ∈ e.stateOf job, ¬ s.Active

/-- `job` was observed in a final state other than success; a row without a state shows none. -/
def Failed (job : JobId) (log : List Event) : Prop :=
  ∃ e ∈ log, ∃ s ∈ e.stateOf job, ¬ s.Active ∧ s ≠ .success ∧ s ≠ .unknown

instance (job : JobId) (log : List Event) : Decidable (Ended job log) :=
  inferInstanceAs (Decidable (∃ e ∈ log, ∃ s ∈ e.stateOf job, ¬ s.Active))
instance (job : JobId) (log : List Event) : Decidable (Failed job log) :=
  inferInstanceAs (Decidable (∃ e ∈ log, ∃ s ∈ e.stateOf job, ¬ s.Active ∧ s ≠ .success ∧ s ≠ .unknown))

/-- What an event reports about `job`. -/
def Event.reportOf (job : JobId) : Event → Option Report
  | .reported k r => if k = job then some r else none
  | _ => none

/-- The last report about `job`. -/
def lastReport (job : JobId) (log : List Event) : Option Report := log.findSome? (Event.reportOf job)

/-- The reports before a decision about a job bear it out: a restart follows an observed
failure of the job, which has not vanished since; a success follows an observed success;
a job last seen active is not handled as failed. -/
def Event.BorneOut (earlier : List Event) : Event → Prop
  | .startSent _ _ job => Failed job earlier ∧ lastReport job earlier ≠ some .missing
  | .succeeded _ job => .reported job (.state .success) ∈ earlier
  | .failureHandled _ job => ¬ ∃ s ∈ lastState job earlier, s.Active
  | _ => True

instance (earlier : List Event) (e : Event) : Decidable (e.BorneOut earlier) := by
  unfold Event.BorneOut
  split <;> infer_instance

/-- Every decision in the history is borne out by the reports before it. -/
def DecidedByEvidence : List Event → Prop
  | [] => True
  | e :: log => e.BorneOut log ∧ DecidedByEvidence log

instance decidableDecided : (log : List Event) → Decidable (DecidedByEvidence log)
  | [] => inferInstanceAs (Decidable True)
  | e :: log => @instDecidableAnd _ _ (inferInstanceAs (Decidable (e.BorneOut log))) (decidableDecided log)

/-- A report stands by those before it: it finds no job active that has ended, and misses none that has failed. -/
def Report.StandsBy (log : List Event) (job : JobId) : Report → Prop
  | .missing => ¬ Failed job log
  | .state s => s.Active → ¬ Ended job log

instance (log : List Event) (job : JobId) : (r : Report) → Decidable (r.StandsBy log job)
  | .missing => inferInstanceAs (Decidable (¬ Failed job log))
  | .state s => inferInstanceAs (Decidable (s.Active → ¬ Ended job log))

def LookupAnswer.StandsBy (log : List Event) (job : JobId) (ans : LookupAnswer) : Prop :=
  ∀ r ∈ ans.report, r.StandsBy log job

instance (log : List Event) (job : JobId) (ans : LookupAnswer) : Decidable (ans.StandsBy log job) :=
  inferInstanceAs (Decidable (∀ r ∈ ans.report, _))

/-- The condition on a step: an install only learns the end of a job it polled if the
job is its own, its direct lookup does not find the job still active, the rows that decide an
outcome have a state, and TrueNAS stands by what it has reported. -/
def FollowsOwnJob (s : State) : Action → Prop
  | .lookupAnswer ans =>
    match s.refresh with
    | some (.lookingUp _ k _) => ans.StandsBy s.log k
    | _ => True
  | .scanAnswer (some jobs) => ∀ job ∈ jobs, ∀ k ∈ job.id, (upgradeJobApp job).isSome = true → ¬ Ended k s.log
  | .pollAnswer n ans _ =>
    match s.tasks.get n with
    | some (.install _ (.polling job k)) =>
      ans.StandsBy s.log k ∧ ∀ j ∈ ans.found, ¬ j.state.Active → k = job ∧ j.state ≠ .unknown
    | _ => True
  | .resolveAnswer n ans =>
    match s.tasks.get n with
    | some (.install _ (.resolving job)) =>
      ans.StandsBy s.log job ∧ ∀ j ∈ ans.found, ¬ j.state.Active ∧ j.state ≠ .unknown
    | some (.watch _ job _ (.resolving _)) => ans.StandsBy s.log job ∧ ∀ j ∈ ans.found, j.state ≠ .unknown
    | _ => True
  | _ => True

instance (s : State) : (a : Action) → Decidable (FollowsOwnJob s a)
  | .lookupAnswer ans => by
    dsimp only [FollowsOwnJob]
    rcases s.refresh with _ | _ | _ | _ <;> infer_instance
  | .scanAnswer none => inferInstanceAs (Decidable True)
  | .scanAnswer (some jobs) => inferInstanceAs (Decidable
      (∀ job ∈ jobs, ∀ k ∈ job.id, (upgradeJobApp job).isSome = true → ¬ Ended k s.log))
  | .pollAnswer n ans _ => by
    dsimp only [FollowsOwnJob]
    rcases s.tasks.get n with _ | ⟨_,_ | _ | _ | _ | _ | _ | _ | _ | _⟩ | _ <;> infer_instance
  | .resolveAnswer n ans => by
    dsimp only [FollowsOwnJob]
    rcases s.tasks.get n with _ | ⟨_,_ | _ | _ | _ | _ | _ | _ | _ | _⟩ | ⟨_,_,_,_ | _ | _ | _⟩ <;> infer_instance
  | .refreshStart | .refreshAborted | .appsAnswer _ | .entityCreated _ | .entityRemoved _ | .entityAdded _ | .notifyEntity _
  | .notifyWatch _ | .installCall _ | .jobCreated _ | .jobCreatedElsewhere _ | .upgradeFailed _ | .upgradeAnswer _
  | .wake _ _ | .refreshDone _ | .instanceAnswer _ _ | .startAnswer _ | .taskAborted _ | .installEnd _
  | .watchResume _ | .watchTimeout _ => inferInstanceAs (Decidable True)

section Reports
variable {job : JobId} {log : List Event}

theorem Failed.mono {l : List Event} (h : Failed job log) : Failed job (l ++ log) := by
  obtain ⟨e,he,hs⟩ := h
  exact ⟨e,List.mem_append_right l he,hs⟩

theorem ended_of_reported {st : JobState} (h : .reported job (.state st) ∈ log) (ha : ¬ st.Active) :
    Ended job log := ⟨_,h,st,by simp [Event.stateOf],ha⟩

theorem failed_of_reported {st : JobState} (h : .reported job (.state st) ∈ log) (ha : ¬ st.Active)
    (hs : st ≠ .success) (hu : st ≠ .unknown) : Failed job log := ⟨_,h,st,by simp [Event.stateOf],ha,hs,hu⟩

theorem Event.stateOf_of_reportOf {e : Event} (h : e.reportOf job = none) : e.stateOf job = none := by
  cases e with
  | reported k r =>
    have hk : k ≠ job := by simpa [Event.reportOf] using h
    cases r with
    | missing => rfl
    | state st => exact if_neg hk
  | _ => rfl

/-- An event about other jobs leaves what was observed of `job`. -/
theorem failed_cons_iff {e : Event} (h : e.stateOf job = none) : Failed job (e :: log) ↔ Failed job log := by
  simp [Failed,h]

theorem ended_cons_iff {e : Event} (h : e.stateOf job = none) : Ended job (e :: log) ↔ Ended job log := by
  simp [Ended,h]

end Reports

/-- The final state of a row is a report about the job it names, unless another job is
tracked by now. -/
def Recorded (log : List Event) (vals : Tracking) : Prop :=
  ∀ job, vals.updateEndedJobid = some job → vals.updateJobid = none ∨ vals.updateJobid = some job →
    vals.updateState ≠ .unknown → ¬ vals.updateState.Active →
    .reported job (.state vals.updateState) ∈ log

theorem recorded_default (log : List Event) : Recorded log {} := by
  intro job h
  cases h

theorem recorded_of_active {vals : Tracking} (h : vals.updateState.Active) (log : List Event) :
    Recorded log vals := fun _ _ _ _ ha => absurd h ha

theorem Recorded.mono {log l : List Event} {vals : Tracking} (h : Recorded log vals) :
    Recorded (l ++ log) vals := fun job he hj hu ha => List.mem_append_right l (h job he hj hu ha)

theorem Recorded.clearAdopted {log : List Event} {vals : Tracking} (h : Recorded log vals) :
    Recorded log (clearAdopted vals) := h

theorem recorded_adoptRow {job : JobRecord} {uid : Uid} (h : upgradeJobApp job = some uid)
    (log : List Event) (row : Row) : Recorded log (adoptRow job row).job :=
  recorded_of_active (active_of_upgradeJobApp h) log

theorem recorded_adoptedRow {log : List Event} {row : Row} (h : Recorded log row.job)
    (jobs : List JobRecord) (uid : Uid) : Recorded log (adoptedRow jobs uid row).job := by
  cases ht : row.job.updateJobid with
  | some k => rwa [adoptedRow_of_tracked ht]
  | none =>
    cases hf : firstUpgrade jobs uid with
    | none => simpa [adoptedRow,ht,hf] using h
    | some job => simpa [adoptedRow,ht,hf] using recorded_adoptRow (firstUpgrade_app hf).2 log row

theorem recorded_recordAnswer {log : List Event} {vals : Tracking} {k : JobId} {ans : LookupAnswer}
    (h : Recorded log vals) (hk : vals.updateJobid = some k)
    (hr : ∀ r ∈ ans.report, .reported k r ∈ log) : Recorded log (State.recordAnswer ans vals) := by
  cases ans with
  | failed => exact h
  | missing => exact fun _ _ _ hu => absurd rfl hu
  | job j =>
    by_cases ha : j.state.Active
    · exact recorded_of_active (by simp [State.recordAnswer,ha]) log
    · intro job he _ _ _
      have hjob : job = k := by simpa [State.recordAnswer,ha,hk,eq_comm] using he
      simp only [State.recordAnswer,recordAppUpdateJob_of_ended ha,hjob]
      exact hr _ rfl

/-- Every row of every publication and every detached row satisfies `P`. -/
structure EveryTracking (P : Tracking → Prop) (s : State) : Prop where
  row : ∀ g uid row, s.maps g uid = some row → P row.job
  detached : ∀ entity t, s.data entity = .detached t → P t

namespace EveryTracking
variable {P Q : Tracking → Prop} {s t : State}

theorem imp (h : EveryTracking P s) (hpq : ∀ v, P v → Q v) : EveryTracking Q s :=
  ⟨fun g uid row hr => hpq _ (h.row g uid row hr),fun entity t ht => hpq _ (h.detached entity t ht)⟩

theorem congr (h : EveryTracking P s) (hm : t.maps = s.maps) (hd : t.data = s.data) : EveryTracking P t :=
  ⟨fun g uid row hr => h.row g uid row (hm ▸ hr),fun entity v hv => h.detached entity v (hd ▸ hv)⟩

theorem app (h : EveryTracking P s) {uid : Uid} {row : Row} (hr : s.app uid = some row) : P row.job :=
  h.row s.gen uid row hr

theorem dataJob (h : EveryTracking P s) (h0 : P {}) (entity : Entity) : P (s.dataJob entity) := by
  unfold State.dataJob
  cases hd : s.data entity with
  | detached t => exact h.detached entity t hd
  | row g =>
    cases hr : s.maps g entity.uid with
    | none => simpa [hr] using h0
    | some row => simpa [hr] using h.row g entity.uid row hr

theorem publish (h : EveryTracking P s) (h0 : P {}) (listing : List (Uid × AppState)) :
    EveryTracking P (s.publish listing) := by
  refine ⟨fun g uid row hr => ?_,h.detached⟩
  by_cases hg : g = s.gen + 1
  · have hc : carryJobFields s.app listing uid = some row := by simpa [State.publish,hg] using hr
    rw [carryJobFields_eq_some hc]
    cases ho : s.app uid with
    | none => simpa using h0
    | some old => simpa [ho] using h.app ho
  · exact h.row g uid row (by simpa [State.publish,hg] using hr)

theorem adopt (h : EveryTracking P s) {jobs : List JobRecord}
    (ha : ∀ uid row, P row.job → P (adoptedRow jobs uid row).job) :
    EveryTracking P (s.adoptRunningJobs jobs) := by
  refine ⟨fun g uid row hr => ?_,h.detached⟩
  by_cases hg : g = s.gen
  · have hr' : (s.adoptRunningJobs jobs).app uid = some row := by
      subst hg
      exact hr
    rw [State.app_adoptRunningJobs] at hr'
    obtain ⟨old,hold,rfl⟩ := Option.map_eq_some_iff.mp hr'
    exact ha uid old (h.app hold)
  · exact h.row g uid row (by simpa [State.adoptRunningJobs,hg] using hr)

theorem refreshJob (h : EveryTracking P s) {u : Uid} {k : JobId} {ans : LookupAnswer}
    (ha : ∀ v, v.updateJobid = some k → P v → P (State.recordAnswer ans v)) :
    EveryTracking P (s.refreshAppUpdateJob u k ans).1 := by
  refine ⟨fun g uid row hr => ?_,fun entity t ht => h.detached entity t (by simpa using ht)⟩
  rw [State.maps_refreshAppUpdateJob] at hr
  split at hr
  · obtain ⟨rfl,rfl,htr⟩ := ‹g = s.gen ∧ uid = u ∧ s.tracked u = some k›
    obtain ⟨old,hold,rfl⟩ := Option.map_eq_some_iff.mp hr
    have hk : old.job.updateJobid = some k := by simpa [State.tracked,State.app,hold] using htr
    exact ha old.job hk (h.row _ _ old hold)
  · exact h.row g uid row hr

theorem refreshData (h : EveryTracking P s) (h0 : P {}) (entity : Entity) : EveryTracking P (s.refreshData entity) := by
  refine ⟨h.row,fun e t ht => ?_⟩
  by_cases he : e = entity
  · have hd : (if (s.app entity.uid).isSome then EntityData.row s.gen else .detached {}) = .detached t := by
      simpa [State.refreshData,he] using ht
    split at hd
    · cases hd
    · cases hd
      exact h0
  · exact h.detached e t (by simpa [State.refreshData,he] using ht)

theorem writeData (h : EveryTracking P s) {f : Tracking → Tracking} (hf : ∀ v, P v → P (f v)) (entity : Entity) :
    EveryTracking P (s.writeData entity f) := by
  constructor
  · intro g uid row hr
    rw [State.maps_writeData] at hr
    split at hr
    · obtain ⟨old,hold,rfl⟩ := Option.map_eq_some_iff.mp hr
      exact hf _ (h.row _ _ old hold)
    · exact h.row g uid row hr
  · intro e t ht
    rw [State.data_writeData] at ht
    cases hd : s.data entity with
    | row g => exact h.detached e t (by simpa [hd] using ht)
    | detached v =>
      simp only [hd] at ht
      split at ht
      · cases ht
        exact hf _ (h.detached entity v hd)
      · exact h.detached e t ht

theorem watchAdopted (h : EveryTracking P s) (hf : ∀ v, P v → P (clearAdopted v)) (entity : Entity) :
    EveryTracking P (s.watchAdoptedUpgrade entity) := by
  unfold State.watchAdoptedUpgrade
  split
  · exact h
  split
  · exact h
  · exact (h.writeData hf entity).congr rfl rfl

end EveryTracking

theorem recorded_grow {s : State} {log l : List Event} (h : EveryTracking (Recorded log) s)
    (hl : s.log = l ++ log) : EveryTracking (Recorded s.log) s := h.imp (fun _ hv => hl ▸ hv.mono)

theorem recorded_frame {s t : State} (h : EveryTracking (Recorded s.log) s) (hf : Frame s t) :
    EveryTracking (Recorded t.log) t := by
  obtain ⟨es,hes,_⟩ := hf.log
  exact recorded_grow (h.congr hf.maps hf.data) hes

theorem recorded_refreshJob {s : State} (h : EveryTracking (Recorded s.log) s) (u : Uid) (k : JobId)
    (ans : LookupAnswer) :
    EveryTracking (Recorded (s.refreshAppUpdateJob u k ans).1.log) (s.refreshAppUpdateJob u k ans).1 := by
  obtain ⟨es,hes,hr,_⟩ := s.reported_refreshAppUpdateJob u k ans
  rw [hes]
  exact (h.imp (fun _ hv => hv.mono)).refreshJob
    (fun v hk hv => recorded_recordAnswer hv hk (fun r hrep => List.mem_append_left _ (hr r hrep)))

theorem recorded_watchAdopted {s : State} (h : EveryTracking (Recorded s.log) s) (entity : Entity) :
    EveryTracking (Recorded (s.watchAdoptedUpgrade entity).log) (s.watchAdoptedUpgrade entity) := by
  obtain ⟨es,hes,_⟩ := s.log_watchAdoptedUpgrade entity
  exact recorded_grow (h.watchAdopted (fun _ hv => hv.clearAdopted) entity) hes

theorem recorded_step {s t : State} {a : Action} (h : EveryTracking (Recorded s.log) s)
    (hst : Step s a t) : EveryTracking (Recorded t.log) t := by
  cases hst.rowStep with
  | publish => exact (h.publish (recorded_default _) _).congr rfl rfl
  | @adopt jobs _ _ =>
    have ha := h.adopt (fun uid _ hv => recorded_adoptedRow hv jobs uid)
    exact recorded_grow (ha.congr rfl rfl) rfl
  | looked _ hf => exact recorded_frame (recorded_refreshJob h _ _ _) hf
  | polled _ hf => exact recorded_frame (recorded_refreshJob h _ _ _) hf
  | entityCreated _ => exact (h.refreshData (recorded_default _) _).congr rfl rfl
  | entityAdded _ => exact recorded_watchAdopted h _
  | @notifyEntity _ entity _ => exact recorded_watchAdopted (h.refreshData (recorded_default _) entity) entity
  | @upgraded n entity job _ =>
    have he : EveryTracking (Recorded s.log) (s.emit (.upgraded entity.uid job)) := h.congr rfl rfl
    have hw := he.writeData (f := storeUpgradeJob job) (fun _ _ => recorded_of_active active_running _) entity
    exact recorded_grow (l := [.upgraded entity.uid job]) (hw.congr rfl rfl) (s.log_upgradeReturned n entity job)
  | @installEnd n entity _ =>
    have hd : EveryTracking (Recorded (s.dropInstall n entity).log) (s.dropInstall n entity) := h.congr rfl rfl
    exact recorded_watchAdopted hd entity
  | installCall _ => exact h.congr rfl rfl
  | jobCreated _ => exact h.congr rfl rfl
  | jobCreatedElsewhere => exact h.congr rfl rfl
  | @started n _ task job _ _ =>
    exact recorded_grow (l := [.startSent n task.uid job]) (h.congr rfl rfl) rfl
  | frame _ hf => exact recorded_frame h hf

/-- An outcome on its way to the handling is final and was observed; an app about to be
started again was seen to have failed. -/
def Task.Backed (log : List Event) : Task → Prop
  | .install _ (.refreshing job (.known j)) =>
    .reported job (.state j.state) ∈ log ∧ ¬ j.state.Active ∧ j.state ≠ .unknown
  | .install _ (.inspecting job) => Failed job log
  | .watch _ job _ .inspecting => Failed job log
  | _ => True

theorem Task.Backed.mono {log l : List Event} {task : Task} (h : task.Backed log) :
    task.Backed (l ++ log) := by
  unfold Task.Backed at h ⊢
  split
  · exact ⟨List.mem_append_right l h.1,h.2⟩
  · exact Failed.mono h
  · exact Failed.mono h
  · trivial

@[simp] theorem Task.backed_returned {log : List Event} {task u : Task} (h : u ∈ task.returned) :
    u.Backed log := by
  cases task with
  | install uid pc =>
    cases h
    trivial
  | watch uid job restart pc => cases h

/-- The part of the invariant about tasks and the history. -/
structure Backed (s : State) : Prop where
  tasks : ∀ n task, s.tasks.get n = some task → task.Backed s.log
  final : ∀ job, Ended job s.log → ¬ ∃ st ∈ lastState job s.log, st.Active
  present : ∀ job, Failed job s.log → lastReport job s.log ≠ some .missing
  decided : DecidedByEvidence s.log

namespace Backed
variable {s t : State}

theorem congr (h : Backed s) (hl : t.log = s.log) (ht : ∀ n task, t.tasks.get n = some task →
    s.tasks.get n = some task ∨ task.Backed s.log) : Backed t := by
  refine ⟨fun n task hn => ?_,hl ▸ h.final,hl ▸ h.present,hl ▸ h.decided⟩
  rw [hl]
  exact (ht n task hn).elim (h.tasks n task) id

theorem setTask (h : Backed s) {n : ℕ} {o : Option Task} (ho : ∀ u ∈ o, u.Backed s.log) :
    Backed (s.setTask n o) := by
  refine h.congr rfl (fun m task hm => ?_)
  rcases TaskTable.get_set_cases hm with ⟨_,hu⟩ | ⟨_,hm⟩
  · exact Or.inr (ho task hu)
  · exact Or.inl hm

theorem emit (h : Backed s) {e : Event} (hs : ∀ job, e.reportOf job = none) (hb : e.BorneOut s.log) :
    Backed (s.emit e) := by
  have hstate : ∀ job, e.stateOf job = none := fun job => Event.stateOf_of_reportOf (hs job)
  refine ⟨fun n task hn => ?_,fun job he => ?_,fun job hf => ?_,hb,h.decided⟩
  · exact Task.Backed.mono (l := [e]) (h.tasks n task hn)
  · have he' : Ended job s.log := (ended_cons_iff (hstate job)).mp he
    simpa [lastState,hstate] using h.final job he'
  · have hf' : Failed job s.log := (failed_cons_iff (hstate job)).mp hf
    simpa [lastReport,hs] using h.present job hf'

theorem report (h : Backed s) {k : JobId} {r : Report} (hr : r.StandsBy s.log k) :
    Backed (s.emit (.reported k r)) := by
  refine ⟨fun n task hn => ?_,fun job he => ?_,fun job hf => ?_,trivial,h.decided⟩
  · exact Task.Backed.mono (l := [.reported k r]) (h.tasks n task hn)
  · by_cases hjob : k = job
    · subst hjob
      cases r with
      | missing =>
        have he' : Ended k s.log := (ended_cons_iff rfl).mp he
        exact h.final k he'
      | state st =>
        have ha : ¬ st.Active := by
          intro ha
          exact hr ha (by simpa [Ended,Event.stateOf,ha] using he)
        simpa [lastState,Event.stateOf] using ha
    · have hn : Event.stateOf job (.reported k r) = none := by cases r <;> simp [Event.stateOf,hjob]
      simpa [lastState,hn] using h.final job ((ended_cons_iff hn).mp he)
  · by_cases hjob : k = job
    · subst hjob
      cases r with
      | missing => exact absurd ((failed_cons_iff rfl).mp hf) hr
      | state st => simp [lastReport,Event.reportOf]
    · have hn : Event.reportOf job (.reported k r) = none := by simp [Event.reportOf,hjob]
      have hf' : Failed job s.log := (failed_cons_iff (Event.stateOf_of_reportOf hn)).mp hf
      simpa [lastReport,hn] using h.present job hf'

theorem reports (h : Backed s) {l : List Event} (he : ∀ e ∈ l, ∃ k st, e = .reported k (.state st) ∧
    st.Active ∧ ¬ Ended k s.log) : Backed { s with log := l ++ s.log } := by
  have main : Backed { s with log := l ++ s.log } ∧ ∀ k, Ended k (l ++ s.log) → Ended k s.log := by
    induction l with
    | nil => exact ⟨h,fun _ => id⟩
    | cons e l ih =>
      obtain ⟨hb,hend⟩ := ih (fun x hx => he x (List.mem_cons_of_mem _ hx))
      obtain ⟨k,st,rfl,ha,hn⟩ := he e List.mem_cons_self
      refine ⟨hb.report (fun _ hk => hn (hend k hk)),fun k' hk' => hend k' ?_⟩
      obtain ⟨x,hx,st',hst',ha'⟩ := hk'
      rcases List.mem_cons.mp hx with rfl | hx
      · by_cases hkk : k = k'
        · simp only [Event.stateOf,hkk,if_true] at hst'
          cases hst'
          exact absurd ha ha'
        · simp [Event.stateOf,hkk] at hst'
      · exact ⟨x,hx,st',hst',ha'⟩
  exact main.1

theorem spawn (h : Backed s) {x : Task} (ht : x.Backed s.log) {t : State} (hl : t.log = s.log)
    (htasks : t.tasks = s.tasks.spawn x) : Backed t := by
  refine h.congr hl (fun m u hm => ?_)
  rw [htasks] at hm
  rcases TaskTable.get_spawn_cases hm with ⟨_,rfl⟩ | hm
  · exact Or.inr ht
  · exact Or.inl hm

theorem spawnWatch (h : Backed s) (entity : Entity) (job : JobId) (restart : Bool) :
    Backed (s.spawnWatch entity job restart) := by
  have he := h.emit (e := .watchStarted s.tasks.next entity.uid job restart) (fun _ => rfl) trivial
  exact he.spawn (x := .watch entity job restart (.waiting (s.checkJob entity.uid job))) trivial rfl rfl

theorem watchAdopted (h : Backed s) (entity : Entity) : Backed (s.watchAdoptedUpgrade entity) := by
  unfold State.watchAdoptedUpgrade
  split
  · exact h
  split
  · exact h
  · have hw : Backed (s.writeData entity clearAdopted) := h.congr (by simp) (fun _ _ hn => Or.inl (by simpa using hn))
    exact hw.spawnWatch entity _ false

theorem emitLookup (h : Backed s) {job : JobId} {ans : LookupAnswer} (ha : ans.StandsBy s.log job) :
    Backed (s.emitLookup job ans) := by
  cases ans with
  | failed => exact h
  | missing => exact h.report (ha _ rfl)
  | job j => exact h.report (ha _ rfl)

theorem refreshJob (h : Backed s) {u : Uid} {k : JobId} {ans : LookupAnswer}
    (ha : ans.StandsBy s.log k) : Backed (s.refreshAppUpdateJob u k ans).1 := by
  have hlog := s.log_refreshAppUpdateJob u k ans
  have same : ∀ {t : State}, Backed t → t.tasks = s.tasks → t.log = (s.refreshAppUpdateJob u k ans).1.log →
      Backed (s.refreshAppUpdateJob u k ans).1 := by
    intro t ht htasks hl
    exact ht.congr hl.symm (fun n task hn => Or.inl (by simpa [htasks] using hn))
  cases hr : ans.report with
  | none => exact same h rfl (by simp [hlog,hr])
  | some r =>
    have hrep := h.report (ha r hr)
    by_cases hc : s.tracked u = some k ∧ r.Ends
    · exact same (hrep.emit (e := .ended u k) (fun _ => rfl) trivial) rfl (by simp [hlog,hr,hc])
    · exact same hrep rfl (by simp only [hlog,hr,if_neg hc]; rfl)

theorem afterPoll (h : Backed s) (n : ℕ) (entity : Entity) (job : JobId) (late : Bool) :
    Backed (s.afterPoll n entity job late) := by
  have move : ∀ {t : State} {pc}, Backed t → (Task.install entity pc).Backed t.log →
      Backed (t.setTask n (some (.install entity pc))) := fun ht hb => ht.setTask (by simpa using hb)
  unfold State.afterPoll
  split
  · exact move h trivial
  split
  · exact move h trivial
  split
  · exact move (h.spawnWatch entity job true) trivial
  · exact move h trivial

theorem handleUpgradeOutcome (h : Backed s) {n : ℕ} {task : Task} {job : JobId}
    {skipped : Option RestartSkipped} {outcome : Outcome}
    (ho : ∀ j, outcome = .known j →
      .reported job (.state j.state) ∈ s.log ∧ ¬ j.state.Active ∧ j.state ≠ .unknown) :
    Backed (s.handleUpgradeOutcome n task job skipped outcome) := by
  cases outcome with
  | unknown => exact h.setTask (fun _ hu => Task.backed_returned hu)
  | known j =>
    obtain ⟨hrep,ha,hu⟩ := ho j rfl
    simp only [State.handleUpgradeOutcome]
    split
    · rename_i hsucc
      have he := h.emit (e := .succeeded task.uid job) (fun _ => rfl) (by simpa [Event.BorneOut,hsucc] using hrep)
      exact he.setTask (fun _ hu => Task.backed_returned hu)
    · rename_i hsucc
      have he := h.emit (e := .failureHandled task.uid job) (fun _ => rfl) (h.final job (ended_of_reported hrep ha))
      refine he.setTask (fun u hmem => ?_)
      split at hmem
      · obtain rfl := Option.some.inj hmem
        have hf : Failed job (.failureHandled task.uid job :: s.log) :=
          Failed.mono (l := [.failureHandled task.uid job]) (failed_of_reported hrep ha hsucc hu)
        cases task <;> exact hf
      · exact Task.backed_returned hmem

theorem restartAfterFailedUpgrade (h : Backed s) {n : ℕ} {task : Task} {job : JobId} {state : Option AppState}
    (hf : Failed job s.log) : Backed (s.restartAfterFailedUpgrade n task job state) := by
  cases state with
  | none => exact h.setTask (fun _ hu => Task.backed_returned hu)
  | some state =>
    simp only [State.restartAfterFailedUpgrade]
    split
    · have he := h.emit (e := .startSent n task.uid job) (fun _ => rfl) ⟨hf,h.present job hf⟩
      refine he.setTask (fun u hu => ?_)
      obtain rfl := Option.some.inj hu
      cases task <;> trivial
    · exact h.setTask (fun _ hu => Task.backed_returned hu)

end Backed

theorem reported_of_resolved {s : State} (h : EveryTracking (Recorded s.log) s) {entity : Entity} {job : JobId}
    {ans : LookupAnswer} {j : Job}
    (hr : (s.emitLookup job ans).resolveUntrackedJob entity job ans = some (.known j)) :
    .reported job (.state j.state) ∈ (s.emitLookup job ans).log ∧
      (j ∈ ans.found ∨ ¬ j.state.Active ∧ j.state ≠ .unknown) := by
  have fallback : ∀ {t : State}, EveryTracking (Recorded t.log) t →
      (if t.hasId entity then some (t.recordedOutcome entity job) else none) = some (.known j) →
      .reported job (.state j.state) ∈ t.log ∧ ¬ j.state.Active ∧ j.state ≠ .unknown := by
    intro t ht hsome
    split at hsome
    · have ho := Option.some.inj hsome
      unfold State.recordedOutcome at ho
      simp only at ho
      split at ho
      · cases ho
      split at ho
      · cases ho
      split at ho
      · cases ho
      · cases ho
        rename_i hj he hs
        obtain ⟨hu,ha⟩ := not_or.mp hs
        refine ⟨ht.dataJob (recorded_default _) entity job (not_not.mp he) ?_ hu ha,ha,hu⟩
        by_cases hnone : (t.dataJob entity).updateJobid = none
        · exact Or.inl hnone
        · exact Or.inr (by tauto)
    · cases hsome
  cases ans with
  | failed => exact (fallback h hr).imp id Or.inr
  | missing => exact (fallback (recorded_frame h (.emitLookup s job .missing)) hr).imp id Or.inr
  | job j' =>
    cases hr
    exact ⟨by simp [State.emitLookup],Or.inl rfl⟩

namespace Backed

theorem pollAnswered {s : State} (h : Backed s) (n : ℕ) (entity : Entity) {job k : JobId} {ans : LookupAnswer} (late : Bool)
    (hrev : ans.StandsBy s.log k) (hown : ∀ j ∈ ans.found, ¬ j.state.Active → k = job ∧ j.state ≠ .unknown) :
    Backed (s.pollAnswered n entity job k ans late) := by
  have hj := h.refreshJob (u := entity.uid) hrev
  have hsnd := s.refreshAppUpdateJob_snd entity.uid k ans
  obtain ⟨es,hes,hrep,_⟩ := s.reported_refreshAppUpdateJob entity.uid k ans
  unfold State.pollAnswered
  generalize s.refreshAppUpdateJob entity.uid k ans = p at hj hsnd hes
  obtain ⟨u,o⟩ := p
  cases o with
  | none => exact Backed.afterPoll hj _ _ _ _
  | some j =>
    simp only
    split
    · exact Backed.afterPoll hj _ _ _ _
    · rename_i ha
      obtain ⟨rfl,hu⟩ := hown j (hsnd ▸ rfl) ha
      have hmem : .reported k (.state j.state) ∈ u.log := by
        cases ans with
        | failed => cases hsnd
        | missing => cases hsnd
        | job j' =>
          cases hsnd
          simp only at hes
          exact hes ▸ List.mem_append_left _ (hrep _ rfl)
      refine Backed.setTask hj (fun task htask => ?_)
      cases htask
      exact ⟨hmem,ha,hu⟩

theorem installResolved {s : State} (hrec : EveryTracking (Recorded s.log) s) (h : Backed s) (n : ℕ)
    (entity : Entity) {job : JobId}
    {ans : LookupAnswer} (hrev : ans.StandsBy s.log job)
    (hact : ∀ j ∈ ans.found, ¬ j.state.Active ∧ j.state ≠ .unknown) :
    Backed ((s.emitLookup job ans).setTask n (some (.install entity
      ((((s.emitLookup job ans).resolveUntrackedJob entity job ans).map
        (InstallPc.refreshing job)).getD .finishing)))) := by
  refine (h.emitLookup hrev).setTask ?_
  intro task htask
  cases htask
  cases hres : (s.emitLookup job ans).resolveUntrackedJob entity job ans with
  | none => trivial
  | some outcome =>
    cases outcome with
    | unknown => trivial
    | known j =>
      obtain ⟨hrep,ha⟩ := reported_of_resolved hrec hres
      exact ⟨hrep,ha.elim (hact j) id⟩

theorem watchResolved {s : State} (hrec : EveryTracking (Recorded s.log) s) (h : Backed s) (n : ℕ) {entity : Entity}
    {job : JobId} (restart : Bool)
    (skipped : Option RestartSkipped) {ans : LookupAnswer} {outcome : Outcome} (hrev : ans.StandsBy s.log job)
    (hstate : ∀ j ∈ ans.found, j.state ≠ .unknown)
    (hres : (s.emitLookup job ans).resolveUntrackedJob entity job ans = some outcome) :
    Backed ((s.emitLookup job ans).watchResolved n entity job restart skipped outcome) := by
  have he := h.emitLookup hrev
  cases outcome with
  | unknown =>
    simp only [State.watchResolved]
    split
    · exact he.setTask (by simp)
    · exact he.handleUpgradeOutcome (by simp)
  | known j =>
    simp only [State.watchResolved]
    split
    · exact he.setTask (by simp)
    split
    · exact he.setTask (by simp)
    · rename_i ha _
      refine he.handleUpgradeOutcome (fun j' hj' => ?_)
      cases hj'
      obtain ⟨hrep,hfound⟩ := reported_of_resolved hrec hres
      exact ⟨hrep,ha,hfound.elim (hstate j) (fun h => h.2)⟩

end Backed

theorem backed_step {s t : State} {a : Action} (hrec : EveryTracking (Recorded s.log) s) (h : Backed s)
    (hk : FollowsOwnJob s a) (hst : Step s a t) : Backed t := by
  have same : ∀ {u : State}, u.log = s.log → u.tasks = s.tasks → Backed u :=
    fun hl ht => h.congr hl (fun _ _ hn => Or.inl (ht ▸ hn))
  have installMoves : ∀ {n entity pc}, (Task.install entity pc).Backed s.log →
      Backed (s.setTask n (some (.install entity pc))) := fun hb => h.setTask (by simpa using hb)
  cases hst with
  | refreshStart _ => exact same rfl rfl
  | refreshAborted => exact same rfl rfl
  | appsAnswer _ => exact same rfl rfl
  | scanFailed => exact same rfl rfl
  | @scanAnswer jobs r _ =>
    have hr := h.reports (l := scanReports jobs) (fun e he => by
      obtain ⟨job,hj,uid,k,hu,hid,rfl⟩ := mem_scanReports he
      exact ⟨k,job.state,rfl,active_of_upgradeJobApp hu,hk job hj k (by simp [hid]) (by simp [hu])⟩)
    exact hr.congr rfl (fun _ _ hn => Or.inl hn)
  | lookupAnswer hr =>
    simp only [FollowsOwnJob,hr] at hk
    exact (h.refreshJob hk).congr rfl (fun _ _ hn => Or.inl hn)
  | entityCreated _ => exact same rfl rfl
  | entityRemoved => exact same rfl rfl
  | entityAdded _ => exact h.watchAdopted _
  | @notifyEntity _ entity _ =>
    have hr : Backed (s.refreshData entity) := same rfl rfl
    exact hr.watchAdopted entity
  | notifyWatch _ => exact h.setTask (by simp [Task.Backed])
  | @installCall _ entity _ => exact h.spawn (x := .install entity (.upgrading none)) trivial rfl rfl
  | @jobCreated n entity _ =>
    have hn : Backed (s.newJob entity.uid) := same rfl rfl
    exact hn.setTask (by simp [Task.Backed])
  | jobCreatedElsewhere => exact same rfl rfl
  | upgradeFailed _ => exact installMoves trivial
  | @upgradeAnswer n entity job _ =>
    have he := h.emit (e := .upgraded entity.uid job) (fun _ => rfl) trivial
    have hw : Backed ((s.emit (.upgraded entity.uid job)).writeData entity (storeUpgradeJob job)) :=
      he.congr (by simp) (fun _ _ hn => Or.inl (by simpa using hn))
    exact hw.setTask (by simp [Task.Backed])
  | wake _ =>
    unfold State.pollUpgradeJob
    split
    · split
      · exact installMoves trivial
      · exact h.afterPoll _ _ _ _
    · exact installMoves trivial
  | @pollAnswer n entity job k ans late hn =>
    simp only [FollowsOwnJob,hn] at hk
    obtain ⟨hrev,hown⟩ := hk
    exact h.pollAnswered n entity late hrev hown
  | @installResolved n entity job ans hn =>
    simp only [FollowsOwnJob,hn] at hk
    obtain ⟨hrev,hact⟩ := hk
    exact Backed.installResolved hrec h n entity hrev hact
  | @watchResolved n entity job restart skipped ans outcome hn hres =>
    simp only [FollowsOwnJob,hn] at hk
    exact Backed.watchResolved hrec h n restart skipped hk.1 hk.2 hres
  | watchUnresolved hn =>
    simp only [FollowsOwnJob,hn] at hk
    exact (h.emitLookup hk.1).setTask (by simp)
  | handoverDone _ => exact installMoves trivial
  | refreshDone hn =>
    refine h.handleUpgradeOutcome (fun j hj => ?_)
    subst hj
    exact h.tasks _ _ hn
  | installInspected hn => exact h.restartAfterFailedUpgrade (h.tasks _ _ hn)
  | watchInspected hn => exact h.restartAfterFailedUpgrade (h.tasks _ _ hn)
  | installStarted _ => exact installMoves trivial
  | watchStarted _ => exact h.setTask (by simp)
  | taskAborted _ => exact h.setTask (fun _ hu => Task.backed_returned hu)
  | @installEnd n entity _ =>
    have hd : Backed (s.dropInstall n entity) :=
      (h.setTask (n := n) (o := none) (by simp)).congr rfl (fun _ _ hn => Or.inl hn)
    exact hd.watchAdopted entity
  | watchResume _ =>
    unfold State.watchFinished
    split
    · exact h.setTask (by simp)
    · refine h.setTask (fun u hu => ?_)
      obtain ⟨_,_,rfl⟩ := Option.map_eq_some_iff.mp hu
      trivial
  | watchTimeout _ => exact h.setTask (by simp)

/-- In every run whose steps meet `FollowsOwnJob`, outcomes are decided by reports about
the job itself. -/
theorem decidedByEvidence_of_reach {s : State} (h : system.Reach FollowsOwnJob s) :
    DecidedByEvidence s.log := by
  have hrec : ∀ {s}, system.Reach FollowsOwnJob s → EveryTracking (Recorded s.log) s := by
    intro s hs
    refine hs.invariant (fun s hi => ?_) (fun h _ hst => recorded_step h (Step.of_step hst))
    cases hi
    exact ⟨fun _ _ _ hr => by simp [State.initial] at hr,fun uid t ht => by
      cases ht
      exact recorded_default _⟩
  have hb : Backed s := h.invariant_of hrec (fun s hi => by
    cases hi
    exact ⟨fun _ _ hn => by simp [State.initial] at hn,fun _ he => by simp [State.initial,Ended] at he,
      fun _ _ => by simp [State.initial,lastReport],trivial⟩)
    (fun hr _ hb hk hst => backed_step hr hb hk (Step.of_step hst))
  exact hb.decided

/-- An upgrade that fails while its install polls it: the app is started again. -/
theorem decidedByEvidence_of_failed_install : ∃ s, (system.Reach FollowsOwnJob s ∧
    .startSent 0 "a" 1 ∈ s.log) ∧ DecidedByEvidence s.log := by
  obtain ⟨s,hr,hl⟩ := system.exists_reach_of_run FollowsOwnJob rfl
    ([.refreshStart,.appsAnswer [("a",.running)],.scanAnswer (some []),.entityCreated "a",
      .installCall "a",.jobCreated 0,.upgradeAnswer 0,.wake 0 false,.pollAnswer 0 (.job { state := .failed }) false,
      .refreshDone 0,.instanceAnswer 0 (some .stopped)])
    (fun s => .startSent 0 "a" 1 ∈ s.log) (by decide)
  exact ⟨s,⟨hr,hl⟩,decidedByEvidence_of_reach hr⟩

/-- An install that lost its tracking looks its job up, finds it running and restarts
the app in the middle of the upgrade. -/
theorem not_decidedByEvidence_of_lost_tracking : ¬ ∀ s, system.Reachable s → DecidedByEvidence s.log := by
  intro hall
  obtain ⟨s,hr,hn⟩ := system.exists_reach_of_run (fun _ _ => True) rfl
    ([.refreshStart,.appsAnswer [("a",.running)],.scanAnswer (some []),.entityCreated "a",
      .installCall "a",.jobCreated 0,.refreshStart,.appsAnswer [("a",.running)],.upgradeAnswer 0,
      .notifyEntity "a",.wake 0 false,.resolveAnswer 0 (.job { state := .running }),.refreshDone 0,
      .instanceAnswer 0 (some .stopped)])
    (fun s => ¬ DecidedByEvidence s.log) (by decide)
  exact hn (hall s hr)
end TruenasCE.AppUpdate
