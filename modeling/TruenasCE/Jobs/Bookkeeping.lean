import Mathlib.Data.Finset.Insert
import Mathlib.Data.Finset.Erase
import TruenasCE.Library.Past
import TruenasCE.Library.Transition

/-! # The bookkeeping of failing jobs

`_run_job` isolates the failure of one job from the rest of a poll. It touches its two sets when
the job has ended, so that a run of jobs side by side is told by the order in which they end.
-/
namespace TruenasCE.Jobs
open Library

/-- An exception of a job: `TrueNASCallError` carries the name of an error. -/
inductive Raised
  | callError (errname : Option String)
  | other
  deriving DecidableEq

def Raised.permissionDenied : Raised → Bool
  | .callError errname => errname = some "EACCES"
  | .other => false

/-- How the await of a job ends. A cancellation is no `Exception`. -/
inductive Outcome
  | returned
  | raised (err : Raised)
  | cancelled
  deriving DecidableEq

structure Job where
  dunderName : Option String
  str : String

/-- `getattr(job, "__name__", str(job))` -/
def Job.name (job : Job) : String := job.dunderName.getD job.str

inductive Level
  | debug
  | info
  | warning
  | error
  deriving DecidableEq

inductive Line
  | lacksPrivilege
  | stillFailing
  | errorRunning
  | recovered
  deriving DecidableEq

def Line.level : Line → Level
  | .lacksPrivilege => .warning
  | .stillFailing => .debug
  | .errorRunning => .error
  | .recovered => .info

structure Marks where
  systemInfoStale : Bool
  interfaceStale : Bool
  staleEndpoints : Finset String

structure State where
  jobFailing : Finset String
  jobPermissionDenied : Finset String
  marks : Marks

namespace State
variable (s : State)

/-- The `except` branch: the names that are failing, and the line. -/
def noteFailure (name : String) (err : Raised) : Finset String × Line :=
  if err.permissionDenied ∧ name ∉ s.jobPermissionDenied then (insert name s.jobFailing,.lacksPrivilege)
  else if name ∈ s.jobFailing then (s.jobFailing,.stillFailing)
  else (insert name s.jobFailing,.errorRunning)

/-- What the end of a run changes and logs, and what it returns unless it was cancelled. -/
def runJob (job : Job) : Outcome → State × Option Line × Option Bool
  | .cancelled => (s,none,none)
  | .raised err =>
    ({ s with
      jobFailing := (s.noteFailure job.name err).1
      jobPermissionDenied :=
        if err.permissionDenied then insert job.name s.jobPermissionDenied else s.jobPermissionDenied.erase job.name },
      some (s.noteFailure job.name err).2,some false)
  | .returned =>
    ({ s with
      jobFailing := s.jobFailing.erase job.name
      jobPermissionDenied := s.jobPermissionDenied.erase job.name },
      if job.name ∈ s.jobFailing then some .recovered else none,some true)

end State

def jobDataPaths : List (String × List String) :=
  [("get_systeminfo",["system_info"]),("get_interface",["interface"]),("get_pool",["pool"]),
    ("get_dataset",["dataset"]),("get_disk",["disk"]),("get_vm",["vm"]),("get_container",["container"]),
    ("get_directoryservices",["directoryservices"]),("get_alerts",["alerts"]),("get_certificates",["certificate"]),
    ("get_arc",["arc"]),("get_smb",["smb"]),("get_ups",["ups"]),("get_service",["service"]),
    ("get_cloudsync",["cloudsync"]),("get_replication",["replication"]),("get_rsync",["rsynctask"]),
    ("get_snapshottask",["snapshottask"]),("get_scrub",["scrub"]),("get_app",["app"]),
    ("get_app_stats",["app_stats"]),("get_cronjob",["cronjob"])]

def staleEndpointDataPaths : List String :=
  ["pool","dataset","directoryservices","alerts","smb","ups","scrub","service","vm"]

def State.isDataPathFailing (s : State) (dataPath : String) : Bool :=
  if dataPath = "system_info" ∧ s.marks.systemInfoStale then true
  else if dataPath = "interface" ∧ s.marks.interfaceStale then true
  else if dataPath ∈ staleEndpointDataPaths ∧ dataPath ∈ s.marks.staleEndpoints then true
  else jobDataPaths.any (fun p => decide (dataPath ∈ p.2) && decide (p.1 ∈ s.jobFailing))

inductive Event
  | ran (job : Job) (outcome : Outcome)
  | mark (marks : Marks)

/-- A run that has ended, and the line it logged. -/
structure Ran where
  name : String
  outcome : Outcome
  logged : Option Line

/-- A state and the runs that have ended before, the latest first. -/
structure History where
  state : State
  past : List Ran

def step (h : History) : Event → History
  | .ran job outcome =>
    ⟨(h.state.runJob job outcome).1,⟨job.name,outcome,(h.state.runJob job outcome).2.1⟩ :: h.past⟩
  | .mark marks => { h with state := { h.state with marks := marks } }

def State.fresh : State := ⟨∅,∅,⟨false,false,∅⟩⟩

def lifetime : System History Event where
  init h := h = ⟨State.fresh,[]⟩
  step h e := some (step h e)

def lastCompleted (name : String) (past : List Ran) : Option Outcome :=
  (past.find? (fun run => decide (run.name = name ∧ run.outcome ≠ .cancelled))).map Ran.outcome

/-- The failures of the name since its last success, the latest first. -/
def streak (name : String) : List Ran → List Raised
  | [] => []
  | run :: older =>
    if run.name = name then
      match run.outcome with
      | .returned => []
      | .raised err => err :: streak name older
      | .cancelled => streak name older
    else streak name older

structure LogLaw (run : Ran) (older : List Ran) : Prop where
  error : run.logged.map Line.level = some .error ↔
    ∃ err, run.outcome = .raised err ∧ err.permissionDenied = false ∧ streak run.name older = []
  warning : run.logged.map Line.level = some .warning ↔ ∃ err, run.outcome = .raised err ∧
    err.permissionDenied = true ∧ ∀ before ∈ (streak run.name older).head?, before.permissionDenied = false
  recovery : run.logged.map Line.level = some .info ↔ run.outcome = .returned ∧ streak run.name older ≠ []

def Marked (marks : Marks) (dataPath : String) : Prop :=
  (dataPath = "system_info" ∧ marks.systemInfoStale = true) ∨ (dataPath = "interface" ∧ marks.interfaceStale = true) ∨
    (dataPath ∈ staleEndpointDataPaths ∧ dataPath ∈ marks.staleEndpoints)

structure Bookkept (h : History) : Prop where
  failing : ∀ name, name ∈ h.state.jobFailing ↔ ∃ err, lastCompleted name h.past = some (.raised err)
  denied : ∀ name, name ∈ h.state.jobPermissionDenied ↔
    ∃ err, lastCompleted name h.past = some (.raised err) ∧ err.permissionDenied = true
  logged : Always (fun past => ∀ run older, past = run :: older → LogLaw run older) h.past
  paths : ∀ dataPath, h.state.isDataPathFailing dataPath = true ↔ Marked h.state.marks dataPath ∨
    ∃ p ∈ jobDataPaths, dataPath ∈ p.2 ∧ ∃ err, lastCompleted p.1 h.past = some (.raised err)

section Streaks
variable {name other : String} {older past : List Ran} {err : Raised} {outcome : Outcome} {line : Option Line}

theorem streak_of_ne (h : other ≠ name) : streak name (⟨other,outcome,line⟩ :: older) = streak name older := by
  rw [streak,if_neg h]

@[simp] theorem streak_returned : streak name (⟨name,.returned,line⟩ :: older) = [] := by rw [streak,if_pos rfl]

@[simp] theorem streak_raised : streak name (⟨name,.raised err,line⟩ :: older) = err :: streak name older := by
  rw [streak,if_pos rfl]

@[simp] theorem streak_cancelled : streak name (⟨other,.cancelled,line⟩ :: older) = streak name older := by
  rw [streak]
  exact ite_self _

theorem lastCompleted_cons : lastCompleted name (⟨other,outcome,line⟩ :: older) =
    if other = name ∧ outcome ≠ .cancelled then some outcome else lastCompleted name older := by
  unfold lastCompleted
  rw [List.find?_cons]
  by_cases h : other = name ∧ outcome ≠ .cancelled
  · simp [h]
  · simp only [h,decide_false,if_false]

theorem head?_streak : (streak name past).head? = some err ↔ lastCompleted name past = some (.raised err) := by
  induction past with
  | nil => simp [streak,lastCompleted]
  | cons run older ih =>
    obtain ⟨other,outcome,line⟩ := run
    rw [lastCompleted_cons]
    by_cases hn : other = name
    · subst hn
      cases outcome with
      | returned => simp
      | raised err' => simp
      | cancelled => simp [ih]
    · rw [streak_of_ne hn,ih,if_neg (fun h => hn h.1)]

theorem streak_ne_nil_iff : streak name past ≠ [] ↔ ∃ err, lastCompleted name past = some (.raised err) := by
  simp only [← head?_streak,← Option.isSome_iff_exists,List.isSome_head?]

end Streaks

/-- The sets and the lines, told by the streaks. -/
structure Kept (s : State) (past : List Ran) : Prop where
  failing : ∀ name, name ∈ s.jobFailing ↔ streak name past ≠ []
  denied : ∀ name, name ∈ s.jobPermissionDenied ↔ ∃ err ∈ (streak name past).head?, err.permissionDenied = true
  logged : Always (fun past => ∀ run older, past = run :: older → LogLaw run older) past

section Runs
variable {s : State} {past : List Ran} {job : Job} {err : Raised}

theorem notMem_denied_iff (hs : Kept s past) {name : String} : name ∉ s.jobPermissionDenied ↔
    ∀ before ∈ (streak name past).head?, before.permissionDenied = false := by
  simp [hs.denied name]

theorem notMem_failing_iff (hs : Kept s past) {name : String} : name ∉ s.jobFailing ↔ streak name past = [] := by
  simp [hs.failing name]

theorem mem_failing_of_denied (hs : Kept s past) {name : String} (h : name ∈ s.jobPermissionDenied) :
    name ∈ s.jobFailing := by
  obtain ⟨before,hbefore,_⟩ := (hs.denied name).mp h
  exact (hs.failing name).mpr (List.ne_nil_of_mem (List.mem_of_mem_head? hbefore))

theorem noteFailure_cases (s : State) (name : String) (err : Raised) :
    (err.permissionDenied = true ∧ name ∉ s.jobPermissionDenied ∧ (s.noteFailure name err).2 = .lacksPrivilege) ∨
    (¬ (err.permissionDenied = true ∧ name ∉ s.jobPermissionDenied) ∧ name ∈ s.jobFailing ∧
      (s.noteFailure name err).2 = .stillFailing) ∨
    (¬ (err.permissionDenied = true ∧ name ∉ s.jobPermissionDenied) ∧ name ∉ s.jobFailing ∧
      (s.noteFailure name err).2 = .errorRunning) := by
  unfold State.noteFailure
  split
  · rename_i h
    exact Or.inl ⟨h.1,h.2,rfl⟩
  · rename_i h
    split
    · rename_i hf
      exact Or.inr (Or.inl ⟨h,hf,rfl⟩)
    · rename_i hf
      exact Or.inr (Or.inr ⟨h,hf,rfl⟩)

theorem logLaw_raised (hs : Kept s past) (name : String) (err : Raised) :
    LogLaw ⟨name,.raised err,some (s.noteFailure name err).2⟩ past := by
  have hsub : name ∈ s.jobPermissionDenied → name ∈ s.jobFailing := mem_failing_of_denied hs
  refine ⟨?_,?_,?_⟩
  · simp only [← notMem_failing_iff hs]
    rcases noteFailure_cases s name err with ⟨hp,_,hline⟩ | ⟨_,hf,hline⟩ | ⟨hnot,hf,hline⟩
    · simp [hline,hp,Line.level]
    · simp [hline,hf,Line.level]
    · have hp : err.permissionDenied = false := Bool.eq_false_iff.mpr (fun h => hnot ⟨h,fun hd => hf (hsub hd)⟩)
      simp [hline,hf,hp,Line.level]
  · simp only [← notMem_denied_iff hs]
    rcases noteFailure_cases s name err with ⟨hp,hd,hline⟩ | ⟨hnot,_,hline⟩ | ⟨hnot,_,hline⟩
    · simp [hline,hp,hd,Line.level]
    · simpa [hline,Line.level] using hnot
    · simpa [hline,Line.level] using hnot
  · rcases noteFailure_cases s name err with ⟨_,_,hline⟩ | ⟨_,_,hline⟩ | ⟨_,_,hline⟩
    · simp [hline,Line.level]
    · simp [hline,Line.level]
    · simp [hline,Line.level]

theorem mem_noteFailure {name other : String} : other ∈ (s.noteFailure name err).1 ↔ other = name ∨ other ∈ s.jobFailing := by
  unfold State.noteFailure
  split
  · exact Finset.mem_insert
  · split
    · rename_i hmem
      exact ⟨Or.inr,fun h => h.elim (fun heq => heq ▸ hmem) id⟩
    · exact Finset.mem_insert

theorem always_runJob {run : Ran} (h : Always (fun past => ∀ run older, past = run :: older → LogLaw run older) past)
    (hrun : LogLaw run past) : Always (fun past => ∀ run older, past = run :: older → LogLaw run older) (run :: past) := by
  refine always_cons.mpr ⟨fun run' older heq => ?_,h⟩
  obtain ⟨rfl,rfl⟩ := List.cons.inj heq
  exact hrun

theorem kept_fresh : Kept State.fresh [] where
  failing name := by simp [State.fresh,streak]
  denied name := by simp [State.fresh,streak]
  logged := always_nil.mpr (fun _ _ h => absurd h (List.cons_ne_nil _ _).symm)

theorem logLaw_cancelled (name : String) : LogLaw ⟨name,.cancelled,none⟩ past := by
  refine ⟨?_,?_,?_⟩
  · simp
  · simp
  · simp

theorem logLaw_returned (hs : Kept s past) (name : String) :
    LogLaw ⟨name,.returned,if name ∈ s.jobFailing then some .recovered else none⟩ past := by
  refine ⟨?_,?_,?_⟩
  · split
    · simp [Line.level]
    · simp
  · split
    · simp [Line.level]
    · simp
  · rw [← hs.failing name]
    split
    · simp [*,Line.level]
    · simp [*]

theorem Kept.runJob (hs : Kept s past) (job : Job) (outcome : Outcome) :
    Kept (s.runJob job outcome).1 (⟨job.name,outcome,(s.runJob job outcome).2.1⟩ :: past) := by
  cases outcome with
  | cancelled =>
    refine ⟨fun name => ?_,fun name => ?_,always_runJob hs.logged (logLaw_cancelled job.name)⟩
    · simpa [State.runJob] using hs.failing name
    · simpa [State.runJob] using hs.denied name
  | raised err =>
    refine ⟨fun name => ?_,fun name => ?_,always_runJob hs.logged (logLaw_raised hs job.name err)⟩
    · simp only [State.runJob]
      rw [mem_noteFailure]
      by_cases hn : job.name = name
      · simp [hn]
      · rw [streak_of_ne hn,hs.failing name]
        exact or_iff_right (fun h => hn h.symm)
    · simp only [State.runJob]
      by_cases hn : job.name = name
      · rw [hn,streak_raised]
        split
        · simp [*]
        · simp [*]
      · rw [streak_of_ne hn,← hs.denied name]
        split
        · rw [Finset.mem_insert,or_iff_right (fun h => hn h.symm)]
        · rw [Finset.mem_erase,and_iff_right (fun h => hn h.symm)]
  | returned =>
    refine ⟨fun name => ?_,fun name => ?_,always_runJob hs.logged (logLaw_returned hs job.name)⟩
    · simp only [State.runJob,Finset.mem_erase]
      by_cases hn : job.name = name
      · simp [hn]
      · rw [streak_of_ne hn,hs.failing name,and_iff_right (fun h => hn h.symm)]
    · simp only [State.runJob,Finset.mem_erase]
      by_cases hn : job.name = name
      · simp [hn]
      · rw [streak_of_ne hn,hs.denied name,and_iff_right (fun h => hn h.symm)]

theorem kept_of_reachable {h : History} (hr : lifetime.Reachable h) : Kept h.state h.past := by
  refine hr.invariant (I := fun h => Kept h.state h.past) ?_ ?_
  · rintro h rfl
    exact kept_fresh
  · intro h event t hs _ hstep
    cases hstep
    cases event with
    | ran job outcome => exact hs.runJob job outcome
    | mark marks => exact ⟨hs.failing,hs.denied,hs.logged⟩

theorem isDataPathFailing_iff (s : State) (dataPath : String) : s.isDataPathFailing dataPath = true ↔
    Marked s.marks dataPath ∨ ∃ p ∈ jobDataPaths, dataPath ∈ p.2 ∧ p.1 ∈ s.jobFailing := by
  unfold State.isDataPathFailing Marked
  split
  · simp [*]
  split
  · simp [*]
  split
  · simp [*]
  · simp only [*,List.any_eq_true,Bool.and_eq_true,decide_eq_true_eq,false_or]

/-- In every run of jobs the sets, the lines and the failing data paths are those owed. -/
theorem bookkept_of_reachable (h : History) (hr : lifetime.Reachable h) : Bookkept h := by
  have hkept := kept_of_reachable hr
  have hfailing (name : String) :
      name ∈ h.state.jobFailing ↔ ∃ err, lastCompleted name h.past = some (.raised err) :=
    (hkept.failing name).trans streak_ne_nil_iff
  refine ⟨hfailing,fun name => ?_,hkept.logged,fun dataPath => ?_⟩
  · rw [hkept.denied name]
    simp only [Option.mem_def,head?_streak]
  · rw [isDataPathFailing_iff]
    simp only [hfailing]

end Runs

/-- A missing privilege after another failure is a warning of its own; the success after it recovers. -/
theorem bookkept_of_denied : Bookkept (step (step (step ⟨State.fresh,[]⟩ (.ran ⟨some "get_app",""⟩ (.raised .other)))
    (.ran ⟨some "get_app",""⟩ (.raised (.callError (some "EACCES"))))) (.ran ⟨some "get_app",""⟩ .returned)) :=
  bookkept_of_reachable _ (.step (.step (.step (.init rfl) trivial rfl) trivial rfl) trivial rfl)

end TruenasCE.Jobs
