import TruenasCE.AppUpdate.State

/-! # The coordinator's side of upgrade tracking

Carrying the tracking fields into freshly published rows, recording polled jobs,
and adopting upgrade jobs that were running before setup.
-/
namespace TruenasCE.AppUpdate
open Library

def resetAppUpdateJob (vals : Tracking) (state : JobState) : Tracking :=
  { vals with updateEndedJobid := vals.updateJobid, updateJobid := none, updateState := state }

def recordAppUpdateJob (vals : Tracking) (job : Job) : Tracking :=
  let vals := { vals with
    updateState := job.state, updateProgress := job.percent, updateDescription := job.description }
  if job.state.Active then vals else resetAppUpdateJob vals job.state

@[simp] theorem recordAppUpdateJob_of_active {job : Job} (h : job.state.Active) (vals : Tracking) :
    recordAppUpdateJob vals job = { vals with
      updateState := job.state, updateProgress := job.percent, updateDescription := job.description } := by
  simp [recordAppUpdateJob,h]

@[simp] theorem recordAppUpdateJob_of_ended {job : Job} (h : ¬ job.state.Active) (vals : Tracking) :
    recordAppUpdateJob vals job = { vals with
      updateState := job.state, updateProgress := job.percent, updateDescription := job.description,
      updateEndedJobid := vals.updateJobid, updateJobid := none } := by
  simp [recordAppUpdateJob,h,resetAppUpdateJob]

/-- The rows `_refresh_app` publishes: fresh dicts carrying the tracking fields
of the previous row of the same app. -/
def carryJobFields (previous : AppMap) (listing : List (Uid × AppState)) : AppMap := fun uid =>
  (listing.lookup uid).map (fun state => { state, job := ((previous uid).map Row.job).getD {} })

theorem carryJobFields_eq_some {previous : AppMap} {listing : List (Uid × AppState)} {uid : Uid}
    {row : Row} (h : carryJobFields previous listing uid = some row) :
    row.job = ((previous uid).map Row.job).getD {} := by
  obtain ⟨_,_,rfl⟩ := Option.map_eq_some_iff.mp h
  rfl

/-- A row of the `app.upgrade` job scan. -/
structure JobRecord where
  id : Option JobId
  method : String
  state : JobState
  argument : Option Uid
  deriving DecidableEq, Repr

def upgradeJobApp (job : JobRecord) : Option Uid :=
  if job.id = none ∨ job.method ≠ "app.upgrade" ∨ ¬ job.state.Active then none else job.argument

theorem active_of_upgradeJobApp {job : JobRecord} {uid : Uid} (h : upgradeJobApp job = some uid) :
    job.state.Active := by
  unfold upgradeJobApp at h
  split at h
  · cases h
  · tauto

theorem id_of_upgradeJobApp {job : JobRecord} {uid : Uid} (h : upgradeJobApp job = some uid) :
    ∃ k, job.id = some k := by
  unfold upgradeJobApp at h
  split at h
  · cases h
  · exact Option.ne_none_iff_exists'.mp (by tauto)

def adoptRow (job : JobRecord) (row : Row) : Row :=
  { row with job := { row.job with
      updateJobid := job.id, updateAdoptedJobid := job.id, updateState := job.state } }

/-- Body of the loop of `_adopt_running_app_upgrade_jobs`; the flag is `adopted_all`. -/
def adoptJob (acc : AppMap × Bool) (job : JobRecord) : AppMap × Bool :=
  match upgradeJobApp job with
  | none => acc
  | some uid =>
    match acc.1 uid with
    | none => (acc.1,false)
    | some row =>
      match row.job.updateJobid with
      | some tracked => (acc.1,acc.2 && some tracked == job.id)
      | none => (Function.update acc.1 uid (some (adoptRow job row)),acc.2)

/-- `_adopt_running_app_upgrade_jobs` on a list answer. -/
def adoptRunning (jobs : List JobRecord) (app : AppMap) : AppMap × Bool :=
  jobs.foldl adoptJob (app,true)

/-- The job a scan offers to an idle row of `uid`. -/
def firstUpgrade (jobs : List JobRecord) (uid : Uid) : Option JobRecord :=
  jobs.find? (fun job => upgradeJobApp job == some uid)

theorem firstUpgrade_app {jobs : List JobRecord} {uid : Uid} {job : JobRecord}
    (h : firstUpgrade jobs uid = some job) : job ∈ jobs ∧ upgradeJobApp job = some uid :=
  ⟨List.mem_of_find?_eq_some h,by simpa using List.find?_some h⟩

/-- What a scan does to one row: a row that tracks a job is left alone, an idle one
takes the first job offered to it. -/
def adoptedRow (jobs : List JobRecord) (uid : Uid) (row : Row) : Row :=
  match row.job.updateJobid,firstUpgrade jobs uid with
  | none,some job => adoptRow job row
  | _,_ => row

theorem adoptedRow_of_tracked {row : Row} {k : JobId} (h : row.job.updateJobid = some k)
    (jobs : List JobRecord) (uid : Uid) : adoptedRow jobs uid row = row := by
  simp [adoptedRow,h]

theorem adoptedRow_nil (uid : Uid) : adoptedRow [] uid = id := by
  funext row
  cases hk : row.job.updateJobid <;> simp [adoptedRow,firstUpgrade,hk]

theorem adoptedRow_singleton_of_ne {job : JobRecord} {uid : Uid} (h : upgradeJobApp job ≠ some uid) :
    adoptedRow [job] uid = id := by
  funext row
  cases hk : row.job.updateJobid <;> simp [adoptedRow,firstUpgrade,hk,h]

theorem adoptedRow_singleton_of_idle {job : JobRecord} {uid : Uid} {row : Row}
    (h : upgradeJobApp job = some uid) (hk : row.job.updateJobid = none) :
    adoptedRow [job] uid row = adoptRow job row := by
  simp [adoptedRow,firstUpgrade,hk,h]

theorem adoptJob_app (acc : AppMap × Bool) (job : JobRecord) (uid : Uid) :
    (adoptJob acc job).1 uid = (acc.1 uid).map (adoptedRow [job] uid) := by
  unfold adoptJob
  cases hj : upgradeJobApp job with
  | none => simp [adoptedRow_singleton_of_ne (show upgradeJobApp job ≠ some uid by simp [hj])]
  | some u =>
    by_cases hu : u = uid
    · subst hu
      cases hr : acc.1 u with
      | none => simp [hr]
      | some row =>
        cases ht : row.job.updateJobid with
        | none => simp [hr,ht,adoptedRow_singleton_of_idle hj]
        | some k => simp [hr,ht,adoptedRow_of_tracked]
    · rw [adoptedRow_singleton_of_ne (show upgradeJobApp job ≠ some uid by simp [hj,hu])]
      cases hr : acc.1 u with
      | none => simp [hr]
      | some row => cases ht : row.job.updateJobid <;> simp [hr,ht,Ne.symm hu]

theorem adoptedRow_cons (job : JobRecord) (rest : List JobRecord) (uid : Uid) (row : Row) :
    adoptedRow rest uid (adoptedRow [job] uid row) = adoptedRow (job :: rest) uid row := by
  cases ht : row.job.updateJobid with
  | some k => simp [adoptedRow_of_tracked ht]
  | none =>
    by_cases hj : upgradeJobApp job = some uid
    · obtain ⟨k,hk⟩ := id_of_upgradeJobApp hj
      have h2 : (adoptRow job row).job.updateJobid = some k := hk
      rw [adoptedRow_singleton_of_idle hj ht,adoptedRow_of_tracked h2]
      simp [adoptedRow,firstUpgrade,ht,hj]
    · rw [adoptedRow_singleton_of_ne hj]
      simp [adoptedRow,firstUpgrade,hj]

theorem foldl_adoptJob_app (jobs : List JobRecord) (acc : AppMap × Bool) (uid : Uid) :
    (jobs.foldl adoptJob acc).1 uid = (acc.1 uid).map (adoptedRow jobs uid) := by
  induction jobs generalizing acc with
  | nil => simp [adoptedRow_nil]
  | cons job rest ih =>
    simp only [List.foldl_cons,ih,adoptJob_app,Option.map_map]
    congr 1
    funext row
    exact adoptedRow_cons job rest uid row

theorem adoptRunning_app (jobs : List JobRecord) (app : AppMap) (uid : Uid) :
    (adoptRunning jobs app).1 uid = (app uid).map (adoptedRow jobs uid) :=
  foldl_adoptJob_app jobs (app,true) uid

def scanReports (jobs : List JobRecord) : List Event :=
  jobs.filterMap (fun job => match upgradeJobApp job,job.id with
    | some _,some k => some (.reported k (.state job.state))
    | _,_ => none)

theorem mem_scanReports {jobs : List JobRecord} {e : Event} (h : e ∈ scanReports jobs) :
    ∃ job ∈ jobs, ∃ uid k, upgradeJobApp job = some uid ∧ job.id = some k ∧
      e = .reported k (.state job.state) := by
  obtain ⟨job,hj,he⟩ := List.mem_filterMap.mp h
  cases hu : upgradeJobApp job with
  | none => simp [hu] at he
  | some uid =>
    cases hk : job.id with
    | none => simp [hu,hk] at he
    | some k =>
      simp only [hu,hk,Option.some.injEq] at he
      exact ⟨job,hj,uid,k,hu,hk,he.symm⟩

namespace State
variable (s : State)

/-- `ds["app"][uid]["update_jobid"]` -/
def tracked (uid : Uid) : Option JobId := (s.app uid).bind (fun row => row.job.updateJobid)

/-- `async_refresh_app_update_job` from the answer about job `k` on. -/
def refreshAppUpdateJob (uid : Uid) (k : JobId) : LookupAnswer → State × Option Job
  | .failed => (s,none)
  | .missing =>
    let s := s.emit (.reported k .missing)
    if s.tracked uid = some k then
      ((s.writeRow s.gen uid (resetAppUpdateJob · .unknown)).emit (.ended uid k),none)
    else (s,none)
  | .job j =>
    let s := s.emit (.reported k (.state j.state))
    if s.tracked uid = some k then
      let t := s.writeRow s.gen uid (recordAppUpdateJob · j)
      (if j.state.Active then t else t.emit (.ended uid k),some j)
    else (s,some j)

def recordAnswer : LookupAnswer → Tracking → Tracking
  | .failed, vals => vals
  | .missing, vals => resetAppUpdateJob vals .unknown
  | .job j, vals => recordAppUpdateJob vals j

theorem maps_refreshAppUpdateJob (uid : Uid) (k : JobId) (ans : LookupAnswer) (g : ℕ) (u : Uid) :
    (s.refreshAppUpdateJob uid k ans).1.maps g u = if g = s.gen ∧ u = uid ∧ s.tracked uid = some k
      then (s.maps g u).map (fun row => { row with job := recordAnswer ans row.job }) else s.maps g u := by
  by_cases ht : s.tracked uid = some k
  · cases ans with
    | failed => simp [refreshAppUpdateJob,recordAnswer]
    | missing =>
      have hr : (s.emit (.reported k .missing)).tracked uid = some k := ht
      simp [refreshAppUpdateJob,hr,ht,maps_writeRow,recordAnswer]
    | job j =>
      have hr : (s.emit (.reported k (.state j.state))).tracked uid = some k := ht
      simp only [refreshAppUpdateJob,hr,if_true,ht,and_true]
      split <;> simp [maps_writeRow,recordAnswer]
  · cases ans with
    | failed => simp [refreshAppUpdateJob,ht]
    | missing =>
      have hr : (s.emit (.reported k .missing)).tracked uid ≠ some k := ht
      simp [refreshAppUpdateJob,hr,ht]
    | job j =>
      have hr : (s.emit (.reported k (.state j.state))).tracked uid ≠ some k := ht
      simp [refreshAppUpdateJob,hr,ht]

theorem refreshAppUpdateJob_rest (uid : Uid) (k : JobId) (ans : LookupAnswer) :
    (s.refreshAppUpdateJob uid k ans).1 = { s with
      maps := (s.refreshAppUpdateJob uid k ans).1.maps
      log := (s.refreshAppUpdateJob uid k ans).1.log } := by
  cases ans with
  | failed => rfl
  | missing => simp only [refreshAppUpdateJob]; split <;> rfl
  | job j => simp only [refreshAppUpdateJob]; split <;> (try split) <;> rfl

@[simp] theorem gen_refreshAppUpdateJob (uid : Uid) (k : JobId) (ans : LookupAnswer) :
    (s.refreshAppUpdateJob uid k ans).1.gen = s.gen := by rw [refreshAppUpdateJob_rest]
@[simp] theorem data_refreshAppUpdateJob (uid : Uid) (k : JobId) (ans : LookupAnswer) :
    (s.refreshAppUpdateJob uid k ans).1.data = s.data := by rw [refreshAppUpdateJob_rest]
@[simp] theorem tasks_refreshAppUpdateJob (uid : Uid) (k : JobId) (ans : LookupAnswer) :
    (s.refreshAppUpdateJob uid k ans).1.tasks = s.tasks := by rw [refreshAppUpdateJob_rest]
@[simp] theorem inFlight_refreshAppUpdateJob (uid : Uid) (k : JobId) (ans : LookupAnswer) :
    (s.refreshAppUpdateJob uid k ans).1.inFlight = s.inFlight := by rw [refreshAppUpdateJob_rest]
@[simp] theorem nextJob_refreshAppUpdateJob (uid : Uid) (k : JobId) (ans : LookupAnswer) :
    (s.refreshAppUpdateJob uid k ans).1.nextJob = s.nextJob := by rw [refreshAppUpdateJob_rest]
@[simp] theorem jobApp_refreshAppUpdateJob (uid : Uid) (k : JobId) (ans : LookupAnswer) :
    (s.refreshAppUpdateJob uid k ans).1.jobApp = s.jobApp := by rw [refreshAppUpdateJob_rest]

theorem app_refreshAppUpdateJob (uid : Uid) (k : JobId) (ans : LookupAnswer) (u : Uid) :
    (s.refreshAppUpdateJob uid k ans).1.app u = if u = uid ∧ s.tracked uid = some k
      then (s.app u).map (fun row => { row with job := recordAnswer ans row.job }) else s.app u := by
  simp [app,maps_refreshAppUpdateJob]

theorem log_refreshAppUpdateJob (uid : Uid) (k : JobId) (ans : LookupAnswer) :
    (s.refreshAppUpdateJob uid k ans).1.log = match ans.report with
      | none => s.log
      | some r => if s.tracked uid = some k ∧ r.Ends then .ended uid k :: .reported k r :: s.log
          else .reported k r :: s.log := by
  cases ans with
  | failed => rfl
  | missing =>
    simp only [refreshAppUpdateJob,LookupAnswer.report]
    by_cases ht : s.tracked uid = some k
    · have hr : (s.emit (.reported k .missing)).tracked uid = some k := ht
      simp [hr,ht,Report.Ends]
    · have hr : (s.emit (.reported k .missing)).tracked uid ≠ some k := ht
      simp [hr,ht]
  | job j =>
    simp only [refreshAppUpdateJob,LookupAnswer.report]
    by_cases ht : s.tracked uid = some k
    · have hr : (s.emit (.reported k (.state j.state))).tracked uid = some k := ht
      by_cases ha : j.state.Active <;> simp [hr,ht,ha,Report.Ends]
    · have hr : (s.emit (.reported k (.state j.state))).tracked uid ≠ some k := ht
      simp [hr,ht]

theorem reported_refreshAppUpdateJob (uid : Uid) (k : JobId) (ans : LookupAnswer) :
    ∃ es, (s.refreshAppUpdateJob uid k ans).1.log = es ++ s.log ∧ (∀ r ∈ ans.report, .reported k r ∈ es) ∧
      ∀ e ∈ es, e = .ended uid k ∨ ∃ r, e = .reported k r := by
  rw [log_refreshAppUpdateJob]
  cases hr : ans.report with
  | none => exact ⟨[],rfl,by simp,by simp⟩
  | some r =>
    simp only
    split
    · exact ⟨[.ended uid k,.reported k r],rfl,by simp,by simp⟩
    · exact ⟨[.reported k r],rfl,by simp,by simp⟩

theorem refreshAppUpdateJob_snd (uid : Uid) (k : JobId) (ans : LookupAnswer) :
    (s.refreshAppUpdateJob uid k ans).2 = ans.found := by
  cases ans with
  | failed => rfl
  | missing => simp only [refreshAppUpdateJob]; split <;> rfl
  | job j => simp only [refreshAppUpdateJob]; split <;> rfl

/-- `_refresh_app` publishes the rows of a `get_app` answer. -/
def publish (listing : List (Uid × AppState)) : State :=
  { s with
    maps := Function.update s.maps (s.gen+1) (carryJobFields s.app listing)
    gen := s.gen+1 }

/-- `_adopt_running_app_upgrade_jobs` from its answer on. -/
def adoptRunningJobs (jobs : List JobRecord) : State :=
  { s with
    maps := Function.update s.maps s.gen (adoptRunning jobs s.app).1
    adopted := (adoptRunning jobs s.app).2
    log := scanReports jobs ++ s.log }

/-- The loop of `_refresh_app_update_jobs` runs to its next lookup or releases the lock. -/
def nextLookup : List Uid → Option RefreshPc
  | [] => none
  | uid :: rest =>
    match s.tracked uid with
    | some k => some (.lookingUp uid k rest)
    | none => nextLookup rest

@[simp] theorem app_publish (listing : List (Uid × AppState)) :
    (s.publish listing).app = carryJobFields s.app listing := by
  simp [app,publish]

@[simp] theorem app_adoptRunningJobs (jobs : List JobRecord) (uid : Uid) :
    (s.adoptRunningJobs jobs).app uid = (s.app uid).map (adoptedRow jobs uid) := by
  simp [app,adoptRunningJobs,adoptRunning_app]

/-- A tracking field of the published row of `uid`. -/
def published (f : Tracking → Option JobId) (uid : Uid) : Option JobId :=
  (s.app uid).bind (fun row => f row.job)

theorem published_publish {f : Tracking → Option JobId} (hf : f {} = none)
    (listing : List (Uid × AppState)) (uid : Uid) : (s.publish listing).published f uid =
      if (listing.lookup uid).isSome then s.published f uid else none := by
  cases hl : listing.lookup uid with
  | none => simp [published,carryJobFields,hl]
  | some state => cases hr : s.app uid <;> simp [published,carryJobFields,hl,hr,hf]

theorem published_refreshAppUpdateJob (f : Tracking → Option JobId) (uid : Uid) (k : JobId)
    (ans : LookupAnswer) (u : Uid) : (s.refreshAppUpdateJob uid k ans).1.published f u =
      if u = uid ∧ s.tracked uid = some k then s.published (fun v => f (recordAnswer ans v)) u
      else s.published f u := by
  unfold published
  rw [app_refreshAppUpdateJob]
  split
  · cases s.app u <;> rfl
  · rfl

end State
end TruenasCE.AppUpdate
