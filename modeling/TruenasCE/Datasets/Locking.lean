import TruenasCE.ApiParser.Value
import TruenasCE.Library.Raising

/-! # Locking and unlocking a dataset

Both actions refresh the data first and return when the data say that nothing is to be done. Otherwise they
start a job of the middleware and poll it. A refresh that fails leaves the data of an earlier read.
-/
namespace TruenasCE.Datasets
open Library ApiParser

/-- A row of `ds["dataset"]`, which is keyed by the id of the dataset. -/
structure Row (uid : String) where
  fields : Fields
  keyed : dictGet fields "id" = .str uid

/-- `_data` of the entity: its row, or an empty dict. -/
abbrev Data (uid : String) := Option (Row uid)

def Data.fields {uid : String} : Data uid → Fields
  | some row => row.fields
  | none => []

/-- What `async_refresh` leaves in `_data`: the row of a read that was made, or what an earlier read had left. -/
inductive Refresh (uid : String)
  | read (row : Data uid)
  | kept (old : Data uid)

def Refresh.data {uid : String} : Refresh uid → Data uid
  | .read row => row
  | .kept old => old

inductive Reason
  | jobFailed (error : Value)
  | jobNotFound (jobId : Value)
  | timedOut
  | invalidJobId
  | unlockFailed (failed : Fields)

inductive Raised
  | datasetNotEncrypted (dataset : Value) (action : String)
  | missingPassphrase (dataset : Value)
  | datasetActionFailed (action : String) (dataset : Value) (reason : Reason)
  /-- A name that is no key of a dict. -/
  | typeError

def jobStatesFailed : List String := ["FAILED","ABORTED"]
def jobMaxMissingPolls : ℕ := 5

/-- `_poll_job` on the answer of `core.get_jobs`. -/
def pollJob : Value → Option Fields
  | .list (.dict job :: _) => some job
  | .dict job => some job
  | _ => none

def orElse (value default : Value) : Value := if value.truthy then value else default

def jobFinished (job : Fields) : Except Reason Bool :=
  let state := dictGet job "state"
  if state.eq (.str "SUCCESS") then .ok true
  else if jobStatesFailed.any (fun failed => state.eq (.str failed)) then
    .error (.jobFailed (orElse (dictGet job "error") (orElse (dictGet job "exception") (.str "unknown error"))))
  else .ok false

/-- The loop of `_wait_for_job` over the answers given before the timeout. -/
def waitForJob (jobId : Value) (missing : ℕ) : List Value → Except Reason Fields
  | [] => .error .timedOut
  | answer :: rest =>
    match pollJob answer with
    | none => if jobMaxMissingPolls ≤ missing + 1 then .error (.jobNotFound jobId) else waitForJob jobId (missing + 1) rest
    | some job =>
      match jobFinished job with
      | .error reason => .error reason
      | .ok true => .ok job
      | .ok false => waitForJob jobId 0 rest

/-- The answer to the call that starts a job, and to the polls of the job until the timeout. -/
structure JobRun where
  jobId : Value
  polls : List Value

/-- `isinstance(job_id, int)` -/
def isInt : Value → Bool
  | .int _ => true
  | .bool _ => true
  | _ => false

def runDatasetJob (job : JobRun) : Except Reason Value :=
  if isInt job.jobId then (waitForJob job.jobId 0 job.polls).map (fun job => dictGet job "result")
  else .error .invalidJobId

def raiseOnUnlockFailure : Value → Except Reason Unit
  | .dict result =>
    match dictGet result "failed" with
    | .dict failed => if failed.isEmpty then .ok () else .error (.unlockFailed failed)
    | _ => .ok ()
  | _ => .ok ()

structure Call where
  method : String
  payload : List Value

structure Ran where
  calls : List Call
  result : Except Raised Unit

def unknownDataset : Value := .str "<unknown>"

section Actions
variable {uid : String}

def datasetName (data : Data uid) : Value := (data.fields.lookup "name").getD unknownDataset

def locked (data : Data uid) : Bool := ((data.fields.lookup "locked").getD (.bool true)).truthy

def encrypted (data : Data uid) : Bool := (dictGet data.fields "encrypted").truthy

def actionFailed (action : String) (data : Data uid) (reason : Reason) : Raised :=
  .datasetActionFailed action (datasetName data) reason

def lock (data : Data uid) (refresh : Refresh uid) (job : JobRun) (forceUmount : Bool) : Ran :=
  if !encrypted data then ⟨[],.error (.datasetNotEncrypted (datasetName data) "lock")⟩
  else if locked refresh.data then ⟨[],.ok ()⟩
  else
    ⟨[⟨"pool.dataset.lock",[dictGet refresh.data.fields "id",.dict [("force_umount",.bool forceUmount)]]⟩],
      match runDatasetJob job with
      | .ok _ => .ok ()
      | .error reason => .error (actionFailed "lock" refresh.data reason)⟩

def storedPassphrase (data : Data uid) (stored : Value) : Except Raised Value :=
  let name := dictGet data.fields "name"
  if !name.truthy then .ok .none
  else
    match stored,name with
    | .dict passphrases,.str name => .ok (dictGet passphrases name)
    | .dict _,.list _ => .error .typeError
    | .dict _,.dict _ => .error .typeError
    | _,_ => .ok .none

def effectivePassphrase (data : Data uid) (stored : Value) : Option String → Except Raised Value
  | some passphrase => .ok (.str passphrase)
  | none => storedPassphrase data stored

def unlock (data : Data uid) (refresh : Refresh uid) (job : JobRun) (stored : Value) (passphrase : Option String)
    (recursive force : Bool) : Ran :=
  if !encrypted data then ⟨[],.error (.datasetNotEncrypted (datasetName data) "unlock")⟩
  else
    match effectivePassphrase data stored passphrase with
    | .error raised => ⟨[],.error raised⟩
    | .ok effective =>
      if !effective.truthy then ⟨[],.error (.missingPassphrase (datasetName data))⟩
      else if !locked refresh.data then ⟨[],.ok ()⟩
      else
        ⟨[⟨"pool.dataset.unlock",[dictGet refresh.data.fields "id",.dict [("recursive",.bool recursive),("datasets",.list
            [.dict [("name",dictGet refresh.data.fields "name"),("passphrase",effective),("recursive",.bool recursive),
              ("force",.bool force)]])]]⟩],
          match (runDatasetJob job).bind raiseOnUnlockFailure with
          | .ok _ => .ok ()
          | .error reason => .error (actionFailed "unlock" refresh.data reason)⟩

inductive Request
  | lock (forceUmount : Bool)
  | unlock (stored : Value) (passphrase : Option String) (recursive force : Bool)

def Request.run (data : Data uid) (refresh : Refresh uid) (job : JobRun) : Request → Ran
  | .lock forceUmount => Datasets.lock data refresh job forceUmount
  | .unlock stored passphrase recursive force => Datasets.unlock data refresh job stored passphrase recursive force

end Actions

/-- The polls find the job running, or miss it fewer than five times in a row, until one finds it in SUCCESS. -/
inductive Succeeds : ℕ → List Value → Fields → Prop
  | success {missing : ℕ} {answer : Value} {rest : List Value} {job : Fields} (hpoll : pollJob answer = some job)
      (hstate : dictGet job "state" = .str "SUCCESS") : Succeeds missing (answer :: rest) job
  | missed {missing : ℕ} {answer : Value} {rest : List Value} {job : Fields} (hpoll : pollJob answer = none)
      (hfew : missing + 1 < jobMaxMissingPolls) (hrest : Succeeds (missing + 1) rest job) : Succeeds missing (answer :: rest) job
  | running {missing : ℕ} {answer : Value} {rest : List Value} {job seen : Fields} (hpoll : pollJob answer = some seen)
      (hstate : ∀ state ∈ "SUCCESS" :: jobStatesFailed, dictGet seen "state" ≠ .str state) (hrest : Succeeds 0 rest job) :
      Succeeds missing (answer :: rest) job

/-- The result names a dataset for which the job failed. -/
def ReportsFailure (result : Value) : Prop := ∃ fields failed, result = .dict fields ∧
  dictGet fields "failed" = .dict failed ∧ failed ≠ []

/-- The job was started, and observed to end in SUCCESS with this result. -/
def Observed (job : JobRun) (result : Value) : Prop :=
  isInt job.jobId = true ∧ ∃ seen, Succeeds 0 job.polls seen ∧ dictGet seen "result" = result

section Owed
variable {uid : String}

def Request.wants : Request → Bool
  | .lock _ => true
  | .unlock .. => false

def Request.method : Request → String
  | .lock _ => "pool.dataset.lock"
  | .unlock .. => "pool.dataset.unlock"

def Showed (request : Request) (refresh : Refresh uid) : Prop := ∃ row : Row uid, refresh = .read (some row) ∧
  ∃ value, row.fields.lookup "locked" = some value ∧ value.truthy = request.wants

/-- The job for the requested change of the dataset was issued, and ended well. -/
def Changed (uid : String) (request : Request) (job : JobRun) (ran : Ran) : Prop :=
  (∃ call ∈ ran.calls, call.method = request.method ∧ call.payload.head? = some (.str uid)) ∧
    ∃ result, Observed job result ∧ ¬ ReportsFailure result

/-- A request that returns normally has changed the dataset, or seen it changed; one for a dataset that is not listed raises. -/
def TrueSuccess (request : Request) (refresh : Refresh uid) (job : JobRun) (ran : Ran) : Prop :=
  (ran.result = .ok () → Showed request refresh ∨ Changed uid request job ran) ∧
    (refresh = .read none → ran.result ≠ .ok ())

def Rejected (data : Data uid) : Request → Prop
  | .lock _ => encrypted data = false
  | .unlock stored passphrase _ _ => encrypted data = false ∨
      ∀ effective, effectivePassphrase data stored passphrase = .ok effective → effective.truthy = false

/-- The data tell the state of the dataset as the refresh has read it. -/
def Fresh (refresh : Refresh uid) : Prop := ∃ row : Row uid, refresh = .read (some row) ∧
  (row.fields.lookup "locked").isSome = true

/-- A job to lock does not end in SUCCESS with failures, and a job to unlock that ends well is one for a listed dataset. -/
def JobSound (refresh : Refresh uid) (job : JobRun) : Request → Prop
  | .lock _ => ∀ result, Observed job result → ¬ ReportsFailure result
  | .unlock .. => refresh.data = none → ∀ result, Observed job result → ReportsFailure result

/-- Where the data say that nothing is to be done they are fresh; otherwise the job is sound. -/
def Sound (data : Data uid) (refresh : Refresh uid) (job : JobRun) (request : Request) : Prop :=
  Rejected data request ∨ if locked refresh.data = request.wants then Fresh refresh else JobSound refresh job request

end Owed

section Jobs
variable {jobId answer result : Value} {missing : ℕ} {polls : List Value} {job seen : Fields} {run : JobRun}

theorem jobFinished_cases (job : Fields) :
    (dictGet job "state" = .str "SUCCESS" ∧ jobFinished job = .ok true) ∨
    ((∃ state ∈ jobStatesFailed, dictGet job "state" = .str state) ∧ dictGet job "state" ≠ .str "SUCCESS" ∧
      ∃ reason, jobFinished job = .error reason) ∨
    ((∀ state ∈ "SUCCESS" :: jobStatesFailed, dictGet job "state" ≠ .str state) ∧ jobFinished job = .ok false) := by
  unfold jobFinished
  simp only
  split
  · rename_i hsuccess
    exact Or.inl ⟨Value.eq_str_iff.mp hsuccess,rfl⟩
  · rename_i hsuccess
    rw [Value.eq_str_iff] at hsuccess
    split
    · rename_i hfailed
      obtain ⟨state,hmem,heq⟩ := List.any_eq_true.mp hfailed
      exact Or.inr (Or.inl ⟨⟨state,hmem,Value.eq_str_iff.mp heq⟩,hsuccess,_,rfl⟩)
    · rename_i hfailed
      refine Or.inr (Or.inr ⟨List.forall_mem_cons.mpr ⟨hsuccess,fun state hmem heq => hfailed ?_⟩,rfl⟩)
      exact List.any_eq_true.mpr ⟨state,hmem,Value.eq_str_iff.mpr heq⟩

theorem succeeds_of_wait (h : waitForJob jobId missing polls = .ok job) : Succeeds missing polls job := by
  induction polls generalizing missing with
  | nil => cases h
  | cons answer rest ih =>
    unfold waitForJob at h
    split at h
    · rename_i hpoll
      split at h
      · cases h
      · rename_i hfew
        exact .missed hpoll (Nat.lt_of_not_le hfew) (ih h)
    · rename_i seen hpoll
      rcases jobFinished_cases seen with ⟨hstate,hfinished⟩ | ⟨_,_,reason,hfinished⟩ | ⟨hstate,hfinished⟩
      · rw [hfinished] at h
        cases h
        exact .success hpoll hstate
      · rw [hfinished] at h
        cases h
      · rw [hfinished] at h
        exact .running hpoll hstate (ih h)

theorem wait_of_succeeds (h : Succeeds missing polls job) : waitForJob jobId missing polls = .ok job := by
  induction h with
  | success hpoll hstate =>
    rename_i job
    rcases jobFinished_cases job with ⟨_,hfinished⟩ | ⟨_,hne,_⟩ | ⟨hne,_⟩
    · simp only [waitForJob,hpoll,hfinished]
    · exact absurd hstate hne
    · exact absurd hstate (hne _ (List.mem_cons_self ..))
  | missed hpoll hfew _ ih =>
    simp only [waitForJob,hpoll]
    rw [if_neg (Nat.not_le_of_lt hfew),ih]
  | running hpoll hstate _ ih =>
    rename_i seen _
    rcases jobFinished_cases seen with ⟨heq,_⟩ | ⟨⟨state,hmem,heq⟩,_⟩ | ⟨_,hfinished⟩
    · exact absurd heq (hstate _ (List.mem_cons_self ..))
    · exact absurd heq (hstate state (List.mem_cons_of_mem _ hmem))
    · simp only [waitForJob,hpoll,hfinished,ih]

/-- The job returns a result exactly if it was started and observed to end in SUCCESS with it. -/
theorem runDatasetJob_ok_iff : runDatasetJob run = .ok result ↔ Observed run result := by
  unfold runDatasetJob Observed
  split
  · rename_i hint
    constructor
    · intro h
      obtain ⟨seen,hwait,hresult⟩ := of_map_ok h
      exact ⟨hint,seen,succeeds_of_wait hwait,hresult⟩
    · rintro ⟨_,seen,hseen,hresult⟩
      rw [wait_of_succeeds hseen,Except.map,hresult]
  · rename_i hint
    exact ⟨fun h => (nomatch h),fun h => absurd h.1 hint⟩

theorem raiseOnUnlockFailure_ok_iff : raiseOnUnlockFailure result = .ok () ↔ ¬ ReportsFailure result := by
  unfold raiseOnUnlockFailure ReportsFailure
  split
  · rename_i fields
    split
    · rename_i failed hfailed
      cases failed with
      | nil => simp [hfailed]
      | cons p rest => simp [hfailed]
    · rename_i hno
      refine ⟨fun _ => ?_,fun _ => rfl⟩
      rintro ⟨_,failed,heq,hfailed,_⟩
      cases heq
      exact hno failed hfailed
  · rename_i hno
    exact ⟨fun _ ⟨fields,_,heq,_⟩ => hno fields heq,fun _ => rfl⟩

end Jobs

section Requests
variable {uid : String} {data : Data uid} {refresh : Refresh uid} {job : JobRun} {request : Request} {ran : Ran}
variable {result result' : Value}

theorem observed_unique (h : Observed job result) (h' : Observed job result') : result = result' := by
  have heq := (runDatasetJob_ok_iff.mpr h).symm.trans (runDatasetJob_ok_iff.mpr h')
  exact Except.ok.inj heq

/-- The request returns at once, as the data show the requested state. -/
structure Returns (request : Request) (refresh : Refresh uid) (ran : Ran) : Prop where
  wanted : locked refresh.data = request.wants
  calls : ran.calls = []
  returned : ran.result = .ok ()

/-- The request issues its job for the id that the data hold, and returns if the job is as it requires. -/
structure Issues (request : Request) (refresh : Refresh uid) (job : JobRun) (ran : Ran) : Prop where
  unwanted : locked refresh.data ≠ request.wants
  calls : ∃ call, ran.calls = [call] ∧ call.method = request.method ∧
    call.payload.head? = some (dictGet refresh.data.fields "id")
  returned : ran.result = .ok () ↔ ∃ result, Observed job result ∧ (request.wants = false → ¬ ReportsFailure result)

theorem lock_cases (data : Data uid) (refresh : Refresh uid) (job : JobRun) (forceUmount : Bool) :
    (Rejected data (.lock forceUmount) ∧ (lock data refresh job forceUmount).result ≠ .ok ()) ∨
    (¬ Rejected data (.lock forceUmount) ∧ (Returns (.lock forceUmount) refresh (lock data refresh job forceUmount) ∨
      Issues (.lock forceUmount) refresh job (lock data refresh job forceUmount))) := by
  unfold lock
  cases hencrypted : encrypted data with
  | false => exact Or.inl ⟨hencrypted,nofun⟩
  | true =>
    refine Or.inr ⟨by simp [Rejected,hencrypted],?_⟩
    cases hlocked : locked refresh.data with
    | true => exact Or.inl ⟨hlocked,rfl,rfl⟩
    | false =>
      refine Or.inr ⟨by simp [hlocked,Request.wants],⟨_,rfl,rfl,rfl⟩,?_⟩
      simp only [Bool.not_true,Bool.false_eq_true,if_false,← runDatasetJob_ok_iff]
      cases runDatasetJob job with
      | error reason => simp
      | ok result => simp [Request.wants]

theorem unlock_cases (data : Data uid) (refresh : Refresh uid) (job : JobRun) (stored : Value) (passphrase : Option String)
    (recursive force : Bool) :
    (Rejected data (.unlock stored passphrase recursive force) ∧
      (unlock data refresh job stored passphrase recursive force).result ≠ .ok ()) ∨
    (¬ Rejected data (.unlock stored passphrase recursive force) ∧
      (Returns (.unlock stored passphrase recursive force) refresh (unlock data refresh job stored passphrase recursive force) ∨
      Issues (.unlock stored passphrase recursive force) refresh job
        (unlock data refresh job stored passphrase recursive force))) := by
  unfold unlock
  cases hencrypted : encrypted data with
  | false => exact Or.inl ⟨Or.inl hencrypted,nofun⟩
  | true =>
    cases heffective : effectivePassphrase data stored passphrase with
    | error raised =>
      refine Or.inl ⟨Or.inr (fun effective heq => ?_),nofun⟩
      rw [heffective] at heq
      cases heq
    | ok effective =>
      cases htruthy : effective.truthy with
      | false =>
        refine Or.inl ⟨Or.inr (fun effective' heq => ?_),by simp [htruthy]⟩
        rw [heffective] at heq
        cases heq
        exact htruthy
      | true =>
        refine Or.inr ⟨by simp [Rejected,hencrypted,heffective,htruthy],?_⟩
        simp only [htruthy,Bool.not_true,Bool.false_eq_true,if_false]
        cases hlocked : locked refresh.data with
        | false => exact Or.inl ⟨hlocked,rfl,rfl⟩
        | true =>
          refine Or.inr ⟨by simp [hlocked,Request.wants],⟨_,rfl,rfl,rfl⟩,?_⟩
          simp only [Bool.not_true,Bool.false_eq_true,if_false,← runDatasetJob_ok_iff,← raiseOnUnlockFailure_ok_iff]
          cases runDatasetJob job with
          | error reason => simp [Except.bind]
          | ok result =>
            cases hraise : raiseOnUnlockFailure result with
            | error reason => simp [Except.bind,hraise,Request.wants]
            | ok => simp [Except.bind,hraise]

theorem run_cases (data : Data uid) (refresh : Refresh uid) (job : JobRun) (request : Request) :
    (Rejected data request ∧ (request.run data refresh job).result ≠ .ok ()) ∨ (¬ Rejected data request ∧
      (Returns request refresh (request.run data refresh job) ∨ Issues request refresh job (request.run data refresh job))) := by
  cases request with
  | lock forceUmount => exact lock_cases data refresh job forceUmount
  | unlock stored passphrase recursive force => exact unlock_cases data refresh job stored passphrase recursive force

theorem showed_iff_fresh (hwanted : locked refresh.data = request.wants) : Showed request refresh ↔ Fresh refresh := by
  constructor
  · rintro ⟨row,hread,value,hvalue,_⟩
    exact ⟨row,hread,Option.isSome_iff_exists.mpr ⟨value,hvalue⟩⟩
  · rintro ⟨row,rfl,hsome⟩
    obtain ⟨value,hvalue⟩ := Option.isSome_iff_exists.mp hsome
    refine ⟨row,rfl,value,hvalue,?_⟩
    rw [← hwanted,locked,Refresh.data,Data.fields,hvalue]
    rfl

theorem not_showed (hunwanted : locked refresh.data ≠ request.wants) : ¬ Showed request refresh := by
  rintro ⟨row,rfl,value,hvalue,htruthy⟩
  refine hunwanted ?_
  rw [← htruthy,locked,Refresh.data,Data.fields,hvalue]
  rfl

theorem ne_read_none_of_fresh (h : Fresh refresh) : refresh ≠ .read none := by
  obtain ⟨row,rfl,_⟩ := h
  nofun

theorem id_of_some {row : Row uid} (h : refresh.data = some row) : dictGet refresh.data.fields "id" = .str uid := by
  rw [h]
  exact row.keyed

theorem id_of_none (h : refresh.data = none) : dictGet refresh.data.fields "id" ≠ .str uid := by
  rw [h]
  nofun

/-- A request that returns at once is right exactly if the data it went by are fresh. -/
theorem trueSuccess_of_returns (h : Returns request refresh ran) : TrueSuccess request refresh job ran ↔ Fresh refresh := by
  rw [← showed_iff_fresh h.wanted]
  constructor
  · intro htrue
    rcases htrue.1 h.returned with hshowed | ⟨⟨call,hcall,_⟩,_⟩
    · exact hshowed
    · rw [h.calls] at hcall
      cases hcall
  · intro hshowed
    exact ⟨fun _ => Or.inl hshowed,fun hnone => absurd hnone (ne_read_none_of_fresh ((showed_iff_fresh h.wanted).mp hshowed))⟩

theorem changed_of_issues {row : Row uid} (h : Issues request refresh job ran) (hrow : refresh.data = some row)
    (hobserved : Observed job result) (hno : ¬ ReportsFailure result) : Changed uid request job ran := by
  obtain ⟨call,hcalls,hmethod,hhead⟩ := h.calls
  refine ⟨⟨call,?_,hmethod,?_⟩,result,hobserved,hno⟩
  · rw [hcalls]
    exact List.mem_singleton_self call
  · rw [hhead,id_of_some hrow]

theorem not_changed_of_issues (h : Issues request refresh job ran) (hnone : refresh.data = none) :
    ¬ Changed uid request job ran := by
  rintro ⟨⟨call,hmem,_,hid⟩,_⟩
  obtain ⟨call',hcalls,_,hhead⟩ := h.calls
  rw [hcalls,List.mem_singleton] at hmem
  rw [hmem,hhead] at hid
  exact id_of_none hnone (Option.some.inj hid)

theorem read_none_data (h : refresh = .read none) : refresh.data = none := by rw [h]; rfl

/-- A request that has issued its job is right exactly if the job of a lock reports no failure, and that of an unlock is
for a listed dataset. -/
theorem trueSuccess_of_issues (h : Issues request refresh job ran) : TrueSuccess request refresh job ran ↔
    JobSound refresh job request := by
  cases request with
  | lock forceUmount =>
    have hreturned : ran.result = .ok () ↔ ∃ result, Observed job result := by
      simpa [Request.wants] using h.returned
    obtain ⟨row,hrow⟩ : ∃ row, refresh.data = some row := by
      cases hdata : refresh.data with
      | none => exact absurd (by rw [hdata]; rfl) h.unwanted
      | some row => exact ⟨row,rfl⟩
    constructor
    · intro htrue result hobserved
      rcases htrue.1 (hreturned.mpr ⟨result,hobserved⟩) with hshowed | ⟨_,result',hobserved',hno⟩
      · exact absurd hshowed (not_showed h.unwanted)
      · rw [observed_unique hobserved hobserved']
        exact hno
    · intro hno
      refine ⟨fun hok => ?_,fun hread => ?_⟩
      · obtain ⟨result,hobserved⟩ := hreturned.mp hok
        exact Or.inr (changed_of_issues h hrow hobserved (hno result hobserved))
      · rw [read_none_data hread] at hrow
        cases hrow
  | unlock stored passphrase recursive force =>
    have hreturned : ran.result = .ok () ↔ ∃ result, Observed job result ∧ ¬ ReportsFailure result := by
      simpa [Request.wants] using h.returned
    constructor
    · intro htrue hnone result hobserved
      by_contra hno
      rcases htrue.1 (hreturned.mpr ⟨result,hobserved,hno⟩) with hshowed | hchanged
      · exact not_showed h.unwanted hshowed
      · exact not_changed_of_issues h hnone hchanged
    · intro hfail
      have hnone : refresh.data = none → ran.result ≠ .ok () := by
        intro hdata hok
        obtain ⟨result,hobserved,hno⟩ := hreturned.mp hok
        exact hno (hfail hdata result hobserved)
      refine ⟨fun hok => ?_,fun hread => hnone (read_none_data hread)⟩
      obtain ⟨result,hobserved,hno⟩ := hreturned.mp hok
      cases hdata : refresh.data with
      | none => exact absurd hok (hnone hdata)
      | some row => exact Or.inr (changed_of_issues h hdata hobserved hno)

/-- A request reports a true success exactly if the data it goes by and its job are sound. -/
theorem trueSuccess_iff_sound (data : Data uid) (refresh : Refresh uid) (job : JobRun) (request : Request) :
    TrueSuccess request refresh job (request.run data refresh job) ↔ Sound data refresh job request := by
  unfold Sound
  rcases run_cases data refresh job request with ⟨hrejected,hfail⟩ | ⟨haccepted,hreturns | hissues⟩
  · exact ⟨fun _ => Or.inl hrejected,fun _ => ⟨fun hok => absurd hok hfail,fun _ => hfail⟩⟩
  · rw [or_iff_right haccepted,if_pos hreturns.wanted]
    exact trueSuccess_of_returns hreturns
  · rw [or_iff_right haccepted,if_neg hissues.unwanted]
    exact trueSuccess_of_issues hissues

end Requests

def tank (isLocked : Bool) : Row "tank" :=
  ⟨[("id",.str "tank"),("name",.str "tank"),("encrypted",.bool true),("locked",.bool isLocked)],rfl⟩

/-- A refresh that fails leaves the row of an earlier read, which says that the dataset is locked: it is not locked. -/
theorem not_trueSuccess_of_kept : ¬ TrueSuccess (.lock false) (.kept (some (tank true))) ⟨.none,[]⟩
    (lock (some (tank true)) (.kept (some (tank true))) ⟨.none,[]⟩ false) := by
  rintro ⟨htrue,_⟩
  rcases htrue rfl with ⟨row,hread,_⟩ | ⟨⟨call,hcall,_⟩,_⟩
  · cases hread
  · cases hcall

end TruenasCE.Datasets
