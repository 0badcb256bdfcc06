import TruenasCE.ApiParser.Value
import TruenasCE.Library.Transition

/-! # The scan for running upgrades

After setup the coordinator asks once for the app upgrades that already run. The rows, the lists of jobs
and the answers to lookups are JSON of any shape here.
-/
namespace TruenasCE.AppUpdate.Scan
open Library ApiParser

abbrev Rows := Mapping String Fields

inductive Raised
  | typeError
  | valueError
  | attributeError
  | keyError
  deriving DecidableEq

/-- `str` and `int` of a JSON value. -/
structure Builtins where
  str : Value → String
  int : Value → Except Raised ℤ

def appUpdateJobActiveStates : List String := ["WAITING","RUNNING"]

/-- `state in APP_UPDATE_JOB_ACTIVE_STATES`: a set is asked by hash. -/
def inActiveStates (state : Value) : Except Raised Bool :=
  match state.key? with
  | some (.str text) => .ok (decide (text ∈ appUpdateJobActiveStates))
  | some _ => .ok false
  | none => .error .typeError

def upgradeJobApp (b : Builtins) : Value → Except Raised (Option String)
  | .dict job =>
    if !(dictGet job "id").truthy || !(dictGet job "method").eq (.str "app.upgrade") then .ok none
    else (inActiveStates (dictGet job "state")).map (fun active =>
      match active,dictGet job "arguments" with
      | true,.list (arg :: _) => if arg.truthy then some (b.str arg) else none
      | _,_ => none)
  | _ => .ok none

def jobField (job : Value) (name : String) : Value :=
  match job with
  | .dict fields => dictGet fields name
  | _ => .none

def adoptRow (job : Value) (vals : Fields) : Fields :=
  Mapping.set (Mapping.set (Mapping.set vals "update_jobid" (jobField job "id"))
    "update_adopted_jobid" (jobField job "id")) "update_state" (jobField job "state")

/-- The loop of the scan: the rows it leaves, and `adopted_all` or what it raised. -/
def adoptJobs (b : Builtins) (rows : Rows) (adoptedAll : Bool) : List Value → Rows × Except Raised Bool
  | [] => (rows,.ok adoptedAll)
  | job :: rest =>
    match upgradeJobApp b job with
    | .error raised => (rows,.error raised)
    | .ok none => adoptJobs b rows adoptedAll rest
    | .ok (some uid) =>
      match rows.lookup uid with
      | none => adoptJobs b rows false rest
      | some vals =>
        let tracked := dictGet vals "update_jobid"
        if tracked.truthy then adoptJobs b rows (adoptedAll && tracked.eq (jobField job "id")) rest
        else adoptJobs b (Mapping.set rows uid (adoptRow job vals)) adoptedAll rest

structure Scanned where
  before : Rows
  answer : Value
  after : Rows
  done : Bool

structure State where
  app : Rows
  appUpgradeJobsAdopted : Bool
  scans : List Scanned

def State.adoptRunningAppUpgradeJobs (b : Builtins) (s : State) (answer : Value) : State :=
  match answer with
  | .list jobs =>
    match adoptJobs b s.app true jobs with
    | (rows,.ok adoptedAll) => ⟨rows,adoptedAll,⟨s.app,answer,rows,adoptedAll⟩ :: s.scans⟩
    | (rows,.error _) => { s with app := rows, scans := ⟨s.app,answer,rows,false⟩ :: s.scans }
  | _ => { s with scans := ⟨s.app,answer,s.app,false⟩ :: s.scans }

/-- `_APP_UPDATE_JOB_FIELDS`, with `_APP_UPDATE_JOB_DEFAULTS`. -/
def appUpdateJobDefaults : Fields :=
  [("update_jobid",.int 0),("update_progress",.int 0),("update_state",.str "unknown"),("update_description",.str ""),
    ("update_adopted_jobid",.int 0),("update_ended_jobid",.int 0)]

def carryFields (carried vals : Fields) : Fields :=
  appUpdateJobDefaults.foldl (fun vals p => Mapping.set vals p.1 ((carried.lookup p.1).getD p.2)) vals

def refreshApp (previous listing : Rows) : Rows :=
  listing.map (fun p => (p.1,carryFields ((previous.lookup p.1).getD []) p.2))

def resetAppUpdateJob (vals : Fields) (state : String) : Fields :=
  Mapping.set (Mapping.set (Mapping.set vals "update_ended_jobid" (dictGet vals "update_jobid"))
    "update_jobid" (.int 0)) "update_state" (.str state)

/-- `value or default` -/
def orElse (value default : Value) : Value := if value.truthy then value else default

/-- The percentage and the description of `job.get("progress") or {}`. -/
def progressOf (b : Builtins) (job : Fields) : Except Raised (ℤ × String) :=
  match orElse (dictGet job "progress") (.dict []) with
  | .dict progress => (b.int (orElse (dictGet progress "percent") (.int 0))).map (fun percent =>
      (percent,b.str (orElse (dictGet progress "description") (.str ""))))
  | _ => .error .attributeError

/-- The row, as far as it was written when a progress raised. -/
def recordAppUpdateJob (b : Builtins) (vals job : Fields) : Fields :=
  let state := b.str (orElse (dictGet job "state") (.str "unknown"))
  let vals := Mapping.set vals "update_state" (.str state)
  match progressOf b job with
  | .error _ => vals
  | .ok (percent,description) =>
    let vals := Mapping.set (Mapping.set vals "update_progress" (.int percent)) "update_description" (.str description)
    if state ∈ appUpdateJobActiveStates then vals else resetAppUpdateJob vals state

/-- `jobs[0] if jobs and isinstance(jobs[0], dict) else None` -/
def firstJob : Value → Except Raised (Option Fields)
  | .list (.dict job :: _) => .ok (some job)
  | .list _ => .ok none
  | .str _ => .ok none
  | .dict fields => if fields.isEmpty then .ok none else .error .keyError
  | jobs => if jobs.truthy then .error .typeError else .ok none

def refreshAppUpdateJob (b : Builtins) (rows : Rows) (uid : String) (jobId answer : Value) : Rows :=
  match answer,firstJob answer,rows.lookup uid with
  | .none,_,_ => rows
  | _,.ok job,some vals =>
    if !(dictGet vals "update_jobid").eq jobId then rows
    else match job with
      | none => Mapping.set rows uid (resetAppUpdateJob vals "unknown")
      | some job => Mapping.set rows uid (recordAppUpdateJob b vals job)
  | _,_,_ => rows

inductive Event
  | refreshApp (listing : Rows)
  | scanned (answer : Value)
  | polled (uid : String) (jobId answer : Value)
  | written (rows : Rows)

/-- A scan is made only as long as none has completed the adoption. -/
def lifetime (b : Builtins) : System State Event where
  init s := s = ⟨[],false,[]⟩
  step s e :=
    match e with
    | .refreshApp listing => some { s with app := refreshApp s.app listing }
    | .scanned answer => if s.appUpgradeJobsAdopted then none else some (s.adoptRunningAppUpgradeJobs b answer)
    | .polled uid jobId answer =>
      if jobId.truthy then some { s with app := refreshAppUpdateJob b s.app uid jobId answer } else none
    | .written rows => some { s with app := rows }

/-- A well-formed job of the id that is active and upgrades the app. -/
def Upgrades (b : Builtins) (job : Value) (uid : String) (id : Value) : Prop :=
  ∃ fields arg rest, job = .dict fields ∧ dictGet fields "id" = id ∧ id.truthy = true ∧
    dictGet fields "method" = .str "app.upgrade" ∧
    (dictGet fields "state" = .str "WAITING" ∨ dictGet fields "state" = .str "RUNNING") ∧
    dictGet fields "arguments" = .list (arg :: rest) ∧ arg.truthy = true ∧ b.str arg = uid

def Lists (b : Builtins) (answer : Value) (uid : String) (id : Value) : Prop :=
  ∃ jobs, answer = .list jobs ∧ ∃ job ∈ jobs, Upgrades b job uid id

def SameJob (id id' : Value) : Prop := id = id' ∨ id.eq id' = true

def Tracks (rows : Rows) (uid : String) (id : Value) : Prop :=
  ∃ vals, rows.lookup uid = some vals ∧ SameJob (dictGet vals "update_jobid") id

/-- The scan starts tracking the job for a row that tracked none, and marks it in the row. -/
def Adopts (scan : Scanned) (uid : String) (id : Value) : Prop :=
  ∃ vals vals', scan.before.lookup uid = some vals ∧ (dictGet vals "update_jobid").truthy = false ∧
    scan.after.lookup uid = some vals' ∧ dictGet vals' "update_jobid" = id ∧ dictGet vals' "update_adopted_jobid" = id

structure ScanLaw (b : Builtins) (scan : Scanned) : Prop where
  kept : ∀ uid vals, scan.before.lookup uid = some vals → (dictGet vals "update_jobid").truthy = true →
    scan.after.lookup uid = some vals
  marked : ∀ uid, scan.after.lookup uid ≠ scan.before.lookup uid → ∃ id, Lists b scan.answer uid id ∧ Adopts scan uid id
  complete : scan.done = true → ∃ jobs, scan.answer = .list jobs ∧
    ∀ job ∈ jobs, ∀ uid id, Upgrades b job uid id → Tracks scan.after uid id

structure Adoption (b : Builtins) (s : State) : Prop where
  laws : ∀ scan ∈ s.scans, ScanLaw b scan
  completed : s.appUpgradeJobsAdopted = true → ∃ scan past, s.scans = scan :: past ∧ scan.done = true ∧
    ∀ earlier ∈ past, earlier.done = false
  accounted : ∀ last past, s.scans = last :: past → last.done = true → ∀ scan ∈ s.scans, ∀ uid id,
    Lists b scan.answer uid id → (∃ scan' ∈ s.scans, ∃ id', SameJob id' id ∧ Adopts scan' uid id') ∨
      Tracks last.before uid id ∨ ¬ Lists b last.answer uid id

section Jobs
variable {b : Builtins} {rows : Rows} {job : Value} {rest jobs : List Value} {uid : String} {id : Value}
variable {vals : Fields} {acc : Bool}

theorem inActiveStates_iff {state : Value} :
    inActiveStates state = .ok true ↔ state = .str "WAITING" ∨ state = .str "RUNNING" := by
  unfold inActiveStates
  cases state with
  | str text => simp [Value.key?,appUpdateJobActiveStates]
  | float f => cases f <;> simp [Value.key?]
  | none | bool | int | list | dict | datetime => simp [Value.key?]

theorem upgradeJobApp_of_upgrades (h : Upgrades b job uid id) :
    upgradeJobApp b job = .ok (some uid) ∧ jobField job "id" = id := by
  obtain ⟨fields,arg,rest,rfl,rfl,hid,hmethod,hstate,hargs,harg,rfl⟩ := h
  refine ⟨?_,rfl⟩
  simp only [upgradeJobApp,hid,hmethod,inActiveStates_iff.mpr hstate,hargs,Except.map]
  simp [harg]

theorem upgrades_of_upgradeJobApp (h : upgradeJobApp b job = .ok (some uid)) : Upgrades b job uid (jobField job "id") := by
  unfold upgradeJobApp at h
  split at h
  · rename_i fields
    split at h
    · cases h
    · rename_i hguard
      simp only [Bool.or_eq_true,Bool.not_eq_true',not_or,Bool.not_eq_false] at hguard
      cases hs : inActiveStates (dictGet fields "state") with
      | error raised => simp [hs,Except.map] at h
      | ok active =>
        simp only [hs,Except.map,Except.ok.injEq] at h
        split at h
        · rename_i arg rest hargs
          split at h
          · rename_i harg
            cases h
            exact ⟨fields,arg,rest,rfl,rfl,hguard.1,Value.eq_str_iff.mp hguard.2,inActiveStates_iff.mp hs,hargs,harg,rfl⟩
          · cases h
        · cases h
  · cases h

inductive Meets (b : Builtins) (rows : Rows) (job : Value) : Prop
  | raised (raised : Raised) (h : upgradeJobApp b job = .error raised)
  | skipped (h : upgradeJobApp b job = .ok none)
  | unlisted (uid : String) (h : upgradeJobApp b job = .ok (some uid)) (hrow : rows.lookup uid = none)
  | tracked (uid : String) (vals : Fields) (h : upgradeJobApp b job = .ok (some uid)) (hrow : rows.lookup uid = some vals)
      (ht : (dictGet vals "update_jobid").truthy = true)
  | idle (uid : String) (vals : Fields) (h : upgradeJobApp b job = .ok (some uid)) (hrow : rows.lookup uid = some vals)
      (ht : (dictGet vals "update_jobid").truthy = false)

theorem meets (b : Builtins) (rows : Rows) (job : Value) : Meets b rows job := by
  cases h : upgradeJobApp b job with
  | error raised => exact .raised raised h
  | ok app =>
    cases app with
    | none => exact .skipped h
    | some uid =>
      cases hrow : rows.lookup uid with
      | none => exact .unlisted uid h hrow
      | some vals =>
        cases ht : (dictGet vals "update_jobid").truthy with
        | true => exact .tracked uid vals h hrow ht
        | false => exact .idle uid vals h hrow ht

theorem adoptJobs_raised {raised : Raised} (h : upgradeJobApp b job = .error raised) :
    adoptJobs b rows acc (job :: rest) = (rows,.error raised) := by
  rw [adoptJobs,h]

theorem adoptJobs_skipped (h : upgradeJobApp b job = .ok none) :
    adoptJobs b rows acc (job :: rest) = adoptJobs b rows acc rest := by
  rw [adoptJobs,h]

theorem adoptJobs_unlisted (h : upgradeJobApp b job = .ok (some uid)) (hrow : rows.lookup uid = none) :
    adoptJobs b rows acc (job :: rest) = adoptJobs b rows false rest := by
  simp only [adoptJobs,h,hrow]

theorem adoptJobs_tracked (h : upgradeJobApp b job = .ok (some uid)) (hrow : rows.lookup uid = some vals)
    (ht : (dictGet vals "update_jobid").truthy = true) : adoptJobs b rows acc (job :: rest) =
      adoptJobs b rows (acc && (dictGet vals "update_jobid").eq (jobField job "id")) rest := by
  simp only [adoptJobs,h,hrow,ht,if_true]

theorem adoptJobs_idle (h : upgradeJobApp b job = .ok (some uid)) (hrow : rows.lookup uid = some vals)
    (ht : (dictGet vals "update_jobid").truthy = false) : adoptJobs b rows acc (job :: rest) =
      adoptJobs b (Mapping.set rows uid (adoptRow job vals)) acc rest := by
  simp [adoptJobs,h,hrow,ht]

theorem jobid_adoptRow (job : Value) (vals : Fields) : dictGet (adoptRow job vals) "update_jobid" = jobField job "id" := by
  simp [adoptRow,dictGet_set]

theorem adopted_adoptRow (job : Value) (vals : Fields) :
    dictGet (adoptRow job vals) "update_adopted_jobid" = jobField job "id" := by
  simp [adoptRow,dictGet_set]

theorem truthy_adoptRow (h : upgradeJobApp b job = .ok (some uid)) (vals : Fields) :
    (dictGet (adoptRow job vals) "update_jobid").truthy = true := by
  obtain ⟨fields,_,_,rfl,_,hid,_⟩ := upgrades_of_upgradeJobApp h
  rw [jobid_adoptRow]
  exact hid

end Jobs

section Loop
variable {b : Builtins} {rows : Rows} {jobs : List Value} {uid : String} {vals : Fields} {acc : Bool}

theorem adoptJobs_kept (hrow : rows.lookup uid = some vals) (ht : (dictGet vals "update_jobid").truthy = true) :
    (adoptJobs b rows acc jobs).1.lookup uid = some vals := by
  induction jobs generalizing rows acc with
  | nil => exact hrow
  | cons job rest ih =>
    cases meets b rows job with
    | raised raised h => rwa [adoptJobs_raised h]
    | skipped h =>
      rw [adoptJobs_skipped h]
      exact ih hrow
    | unlisted other h hother =>
      rw [adoptJobs_unlisted h hother]
      exact ih hrow
    | tracked other vals' h hother ht' =>
      rw [adoptJobs_tracked h hother ht']
      exact ih hrow
    | idle other vals' h hother hidle =>
      rw [adoptJobs_idle h hother hidle]
      have hne : uid ≠ other := by
        rintro rfl
        rw [hrow] at hother
        cases hother
        exact absurd ht (by simp [hidle])
      exact ih (by rw [Mapping.lookup_set_of_ne hne,hrow])

/-- A row that has changed was idle and took one of the jobs of its app. -/
def Took (b : Builtins) (rows after : Rows) (jobs : List Value) (uid : String) : Prop :=
  after.lookup uid = rows.lookup uid ∨ ∃ job ∈ jobs, ∃ vals, upgradeJobApp b job = .ok (some uid) ∧
    rows.lookup uid = some vals ∧ (dictGet vals "update_jobid").truthy = false ∧
    after.lookup uid = some (adoptRow job vals)

theorem Took.cons {after : Rows} (job : Value) (h : Took b rows after jobs uid) : Took b rows after (job :: jobs) uid :=
  h.imp_right (fun ⟨job',hmem,h⟩ => ⟨job',List.mem_cons_of_mem _ hmem,h⟩)

theorem took_adoptJobs (b : Builtins) (rows : Rows) (acc : Bool) (jobs : List Value) (uid : String) :
    Took b rows (adoptJobs b rows acc jobs).1 jobs uid := by
  induction jobs generalizing rows acc with
  | nil => exact Or.inl rfl
  | cons job rest ih =>
    cases meets b rows job with
    | raised raised h =>
      rw [adoptJobs_raised h]
      exact Or.inl rfl
    | skipped h =>
      rw [adoptJobs_skipped h]
      exact (ih rows acc).cons job
    | unlisted other h hother =>
      rw [adoptJobs_unlisted h hother]
      exact (ih rows false).cons job
    | tracked other vals h hother ht =>
      rw [adoptJobs_tracked h hother ht]
      exact (ih rows _).cons job
    | idle other vals h hother hidle =>
      rw [adoptJobs_idle h hother hidle]
      by_cases hu : uid = other
      · subst hu
        exact Or.inr ⟨job,List.mem_cons_self ..,vals,h,hother,hidle,
          adoptJobs_kept Mapping.lookup_set_self (truthy_adoptRow h vals)⟩
      · have hset := ih (Mapping.set rows other (adoptRow job vals)) acc
        unfold Took at hset
        rw [Mapping.lookup_set_of_ne hu] at hset
        exact Took.cons job hset

/-- The loop ends with `True` only if each listed upgrade is tracked when it ends. -/
theorem adoptJobs_complete (h : (adoptJobs b rows acc jobs).2 = .ok true) : acc = true ∧
    ∀ job ∈ jobs, ∀ uid, upgradeJobApp b job = .ok (some uid) → Tracks (adoptJobs b rows acc jobs).1 uid (jobField job "id") := by
  induction jobs generalizing rows acc with
  | nil => exact ⟨Except.ok.inj h,fun _ hmem => absurd hmem List.not_mem_nil⟩
  | cons job rest ih =>
    rw [List.forall_mem_cons]
    cases meets b rows job with
    | raised raised hj =>
      rw [adoptJobs_raised hj] at h
      cases h
    | skipped hj =>
      rw [adoptJobs_skipped hj] at h ⊢
      refine ⟨(ih h).1,fun uid heq => ?_,(ih h).2⟩
      rw [hj] at heq
      cases heq
    | unlisted other hj hother =>
      rw [adoptJobs_unlisted hj hother] at h
      cases (ih h).1
    | tracked other vals hj hother ht =>
      rw [adoptJobs_tracked hj hother ht] at h ⊢
      obtain ⟨hacc,hrest⟩ := ih h
      rw [Bool.and_eq_true] at hacc
      refine ⟨hacc.1,fun uid heq => ?_,hrest⟩
      rw [hj] at heq
      cases heq
      exact ⟨vals,adoptJobs_kept hother ht,Or.inr hacc.2⟩
    | idle other vals hj hother hidle =>
      rw [adoptJobs_idle hj hother hidle] at h ⊢
      obtain ⟨hacc,hrest⟩ := ih h
      refine ⟨hacc,fun uid heq => ?_,hrest⟩
      rw [hj] at heq
      cases heq
      exact ⟨adoptRow job vals,adoptJobs_kept Mapping.lookup_set_self (truthy_adoptRow hj vals),
        Or.inl (jobid_adoptRow job vals)⟩

end Loop

section Histories
variable {b : Builtins} {s : State} {answer : Value} {scan : Scanned} {uid : String} {id : Value}

/-- What the loop leaves obeys the law of a scan, if the scan is recorded as done only when the loop says so. -/
theorem scanLaw_adoptJobs (b : Builtins) (rows : Rows) (jobs : List Value) (done : Bool)
    (hdone : done = true → (adoptJobs b rows true jobs).2 = .ok true) :
    ScanLaw b ⟨rows,.list jobs,(adoptJobs b rows true jobs).1,done⟩ where
  kept _ _ hrow ht := adoptJobs_kept hrow ht
  marked uid hne := by
    rcases took_adoptJobs b rows true jobs uid with heq | ⟨job,hmem,vals,h,hrow,hidle,hafter⟩
    · exact absurd heq hne
    · exact ⟨jobField job "id",⟨jobs,rfl,job,hmem,upgrades_of_upgradeJobApp h⟩,
        vals,adoptRow job vals,hrow,hidle,hafter,jobid_adoptRow job vals,adopted_adoptRow job vals⟩
  complete h := by
    refine ⟨jobs,rfl,fun job hmem uid id hup => ?_⟩
    obtain ⟨happ,rfl⟩ := upgradeJobApp_of_upgrades hup
    exact (adoptJobs_complete (hdone h)).2 job hmem uid happ

/-- A scan that gets no list changes nothing and is not done. -/
theorem scanLaw_unchanged (b : Builtins) (rows : Rows) (answer : Value) : ScanLaw b ⟨rows,answer,rows,false⟩ where
  kept _ _ hrow _ := hrow
  marked _ hne := absurd rfl hne
  complete h := nomatch h

theorem scan_cases (b : Builtins) (s : State) (answer : Value) : ∃ scan, ScanLaw b scan ∧
    (s.adoptRunningAppUpgradeJobs b answer).scans = scan :: s.scans ∧
    ((s.adoptRunningAppUpgradeJobs b answer).appUpgradeJobsAdopted = scan.done ∨
      scan.done = false ∧ (s.adoptRunningAppUpgradeJobs b answer).appUpgradeJobsAdopted = s.appUpgradeJobsAdopted) := by
  unfold State.adoptRunningAppUpgradeJobs
  split
  · rename_i jobs
    have hlaw := scanLaw_adoptJobs b s.app jobs
    split
    · rename_i rows adoptedAll heq
      rw [heq] at hlaw
      exact ⟨_,hlaw adoptedAll (fun h => by rw [h]),rfl,Or.inl rfl⟩
    · rename_i rows raised heq
      rw [heq] at hlaw
      exact ⟨_,hlaw false (fun h => nomatch h),rfl,Or.inr ⟨rfl,rfl⟩⟩
  · exact ⟨_,scanLaw_unchanged b s.app answer,rfl,Or.inr ⟨rfl,rfl⟩⟩

/-- The scans obey their law, and only the last one may have completed the adoption. -/
structure Scans (b : Builtins) (s : State) : Prop where
  laws : ∀ scan ∈ s.scans, ScanLaw b scan
  last : ∀ scan past, s.scans = scan :: past → scan.done = s.appUpgradeJobsAdopted ∧ ∀ earlier ∈ past, earlier.done = false
  first : s.scans = [] → s.appUpgradeJobsAdopted = false

theorem Scans.scanned (hs : Scans b s) (hnot : s.appUpgradeJobsAdopted = false) (answer : Value) :
    Scans b (s.adoptRunningAppUpgradeJobs b answer) := by
  obtain ⟨scan,hlaw,hscans,hdone⟩ := scan_cases b s answer
  have hlast : scan.done = (s.adoptRunningAppUpgradeJobs b answer).appUpgradeJobsAdopted := by
    rcases hdone with h | ⟨h,h'⟩
    · exact h.symm
    · rw [h,h',hnot]
  have hpast : ∀ earlier ∈ s.scans, earlier.done = false := by
    cases hss : s.scans with
    | nil => exact fun _ h => absurd h List.not_mem_nil
    | cons last past =>
      obtain ⟨hd,hearlier⟩ := hs.last last past hss
      exact List.forall_mem_cons.mpr ⟨hd.trans hnot,hearlier⟩
  refine ⟨?_,?_,?_⟩
  · rw [hscans]
    exact List.forall_mem_cons.mpr ⟨hlaw,hs.laws⟩
  · intro scan' past heq
    rw [hscans] at heq
    obtain ⟨rfl,rfl⟩ := List.cons.inj heq
    exact ⟨hlast,hpast⟩
  · intro hnil
    rw [hscans] at hnil
    cases hnil

theorem step_scanned (b : Builtins) (h : s.appUpgradeJobsAdopted = false) (answer : Value) :
    (lifetime b).step s (.scanned answer) = some (s.adoptRunningAppUpgradeJobs b answer) := by
  simp [lifetime,h]

theorem scans_of_reachable (hs : (lifetime b).Reachable s) : Scans b s := by
  refine hs.invariant ?_ ?_
  · rintro s rfl
    exact ⟨fun _ h => absurd h List.not_mem_nil,fun _ _ h => absurd h (List.cons_ne_nil _ _).symm,fun _ => rfl⟩
  · intro s event t hs _ hstep
    cases event with
    | refreshApp listing =>
      cases hstep
      exact ⟨hs.laws,hs.last,hs.first⟩
    | scanned answer =>
      simp only [lifetime] at hstep
      split at hstep
      · cases hstep
      · rename_i hnot
        cases hstep
        exact hs.scanned (Bool.eq_false_iff.mpr hnot) answer
    | polled uid jobId answer =>
      simp only [lifetime] at hstep
      split at hstep
      · cases hstep
        exact ⟨hs.laws,hs.last,hs.first⟩
      · cases hstep
    | written rows =>
      cases hstep
      exact ⟨hs.laws,hs.last,hs.first⟩

theorem tracked_or_adopts (hlaw : ScanLaw b scan) (hdone : scan.done = true) (hlists : Lists b scan.answer uid id) :
    (∃ id', SameJob id' id ∧ Adopts scan uid id') ∨ Tracks scan.before uid id := by
  obtain ⟨jobs,hanswer,hall⟩ := hlaw.complete hdone
  obtain ⟨jobs',hanswer',job,hmem,hup⟩ := hlists
  rw [hanswer] at hanswer'
  cases hanswer'
  obtain ⟨vals,hrow,hsame⟩ := hall job hmem uid id hup
  by_cases hne : scan.after.lookup uid = scan.before.lookup uid
  · exact Or.inr ⟨vals,hne ▸ hrow,hsame⟩
  · obtain ⟨id',_,old,vals',hbefore,hidle,hafter,hid,hmark⟩ := hlaw.marked uid hne
    rw [hrow] at hafter
    cases hafter
    exact Or.inl ⟨id',hid ▸ hsame,old,vals,hbefore,hidle,hrow,hid,hmark⟩

end Histories

/-- `str` of texts and `int` of ints, as far as the jobs here need them. -/
def textBuiltins : Builtins where
  str
    | .str text => text
    | _ => ""
  int
    | .int i => .ok i
    | _ => .error .typeError

def dbUpgrade : Value := .list [.dict [("id",.int 7),("method",.str "app.upgrade"),("state",.str "RUNNING"),
  ("arguments",.list [.str "db"])]]

end TruenasCE.AppUpdate.Scan
