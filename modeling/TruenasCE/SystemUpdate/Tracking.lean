import TruenasCE.ApiParser.Parse
import TruenasCE.AppUpdate.Coordinator
import TruenasCE.Library.Transition

/-! # Tracking a system update job

`_handle_update_job` reads the tracked job into `ds["system_info"]` with `parse_api` and settles by
the state it finds there. The law of the app path, what each kind of answer makes of the tracking,
is stated for both.
-/
namespace TruenasCE.SystemUpdate
open Library ApiParser

/-- `info.get(field)` -/
def read (info : Fields) (field : String) : Value := (info.lookup field).getD .none

def tracked (info : Fields) : Bool := (read info "update_jobid").truthy

def updateAvailable (info : Fields) : Bool := (read info "update_available").truthy

/-- `TrueNASUpdate.in_progress`, and what `_handle_update_job` keeps tracking. -/
def inProgress (info : Fields) : Bool := (read info "update_state").eq (.str "RUNNING")

def updateJobVals : List ApiValueSpec :=
  [{ name := "update_progress", source := some "progress/percent", default := some (.int 0) },
    { name := "update_state", source := some "state", default := some (.str "unknown") }]

def stopTracking (info : Fields) : Fields :=
  Mapping.set (Mapping.set (Mapping.set info "update_progress" (.int 0)) "update_jobid" (.int 0))
    "update_state" (.str "unknown")

def stops (connected : Bool) (info : Fields) : Bool := connected && (!inProgress info || !updateAvailable info)

/-- `_handle_update_job` behind the query -/
def settle (connected : Bool) (info : Fields) : Fields := if stops connected info then stopTracking info else info

/-- `_handle_update_job` on an answer of the query, and whether the api is connected behind it -/
def handleUpdateJob (py : Interpreter) (info : Fields) (source : Value) (connected : Bool) : Except Raised Fields :=
  if tracked info then (parseApiSingle py { vals := updateJobVals } info source).map (settle connected) else .ok info

/-- What `get_update` reports of the fields that the tracking reads. -/
structure UpdateCheck where
  available : Bool
  state : String
  deriving DecidableEq, Repr

def getUpdatecheck (info : Fields) (update : UpdateCheck) : Fields :=
  Mapping.set (Mapping.set info "update_available" (.bool update.available)) "update_state" (.str update.state)

/-- An answer to the query for the tracked job: an API error, a list without it, or its row. -/
inductive Lookup
  | failed
  | missing
  | job (row : Fields)

namespace Lookup

def source : Lookup → Value
  | failed => .none
  | missing => .list []
  | job row => .list [.dict row]

end Lookup

def jobState (row : Fields) : Value := fromEntry row "state" (.str "unknown")

def jobPercent (row : Fields) : Value := fromEntry row "progress/percent" (.int 0)

/-- `APP_UPDATE_JOB_ACTIVE_STATES` of a row -/
def jobActive (row : Fields) : Bool := (jobState row).eq (.str "WAITING") || (jobState row).eq (.str "RUNNING")

/-- `get_systeminfo` has set the defaults of the fields. -/
structure Complete (info : Fields) : Prop where
  progress : (info.lookup "update_progress").isSome = true
  state : (info.lookup "update_state").isSome = true

theorem fillDefaults_of_complete {info : Fields} (h : Complete info) : fillDefaults info updateJobVals = info := by
  simp [fillDefaults,updateJobVals,Mapping.setDefault,h.progress,h.state]

/-- The fields that track a job. -/
@[ext] structure JobView (ι σ π : Type*) where
  id : ι
  state : σ
  progress : π

/-- What a lookup says of the tracked job. -/
inductive Outcome (π : Type*)
  | failed
  | missing
  | active (progress : π)
  | ended

/-- A failed lookup changes nothing, an active job stays tracked with its progress, and tracking ends
with the job. -/
def Lawful {ι σ π : Type*} (trackedId : ι → Prop) (before after : JobView ι σ π) : Outcome π → Prop
  | .failed => after = before
  | .missing => ¬ trackedId after.id
  | .active progress => after.id = before.id ∧ after.progress = progress
  | .ended => ¬ trackedId after.id

def appView (vals : AppUpdate.Tracking) : JobView (Option AppUpdate.JobId) AppUpdate.JobState ℕ :=
  ⟨vals.updateJobid,vals.updateState,vals.updateProgress⟩

def appOutcome : AppUpdate.LookupAnswer → Outcome ℕ
  | .failed => .failed
  | .missing => .missing
  | .job job => if job.state.Active then .active job.percent else .ended

/-- What `async_refresh_app_update_job` records of an answer obeys the law. -/
theorem lawful_recordAnswer (vals : AppUpdate.Tracking) (answer : AppUpdate.LookupAnswer) :
    Lawful (fun id => id.isSome = true) (appView vals) (appView (AppUpdate.State.recordAnswer answer vals))
      (appOutcome answer) := by
  cases answer with
  | failed => rfl
  | missing => simp [Lawful,appOutcome,appView,AppUpdate.State.recordAnswer,AppUpdate.resetAppUpdateJob]
  | job job =>
    by_cases h : job.state.Active
    · simp [Lawful,appOutcome,appView,AppUpdate.State.recordAnswer,h]
    · simp [Lawful,appOutcome,appView,AppUpdate.State.recordAnswer,h]

def view (info : Fields) : JobView Value Value Value :=
  ⟨read info "update_jobid",read info "update_state",read info "update_progress"⟩

def Lookup.outcome : Lookup → Outcome Value
  | failed => .failed
  | missing => .missing
  | job row => if jobActive row then .active (jobPercent row) else .ended

def Lookup.shows (before : Bool) : Lookup → Bool
  | failed => before
  | missing => false
  | job row => jobActive row

structure State where
  info : Fields
  /-- The last successful lookup showed the tracked job active. -/
  shownActive : Bool

inductive Event
  /-- A poll looks the tracked job up. -/
  | lookup (answer : Lookup) (connected : Bool)
  | updatecheck (update : UpdateCheck)

def step (py : Interpreter) (s : State) : Event → Option State
  | .lookup answer connected =>
    if tracked s.info then
      match handleUpdateJob py s.info answer.source connected with
      | .ok info => some { info, shownActive := answer.shows s.shownActive }
      | .error _ => none
    else none
  | .updatecheck update => some { s with info := getUpdatecheck s.info update }

/-- Runs from a job that `async_install` has begun to track, no update being in progress. -/
def tracker (py : Interpreter) : System State Event where
  init s := Complete s.info ∧ tracked s.info = true ∧ inProgress s.info = false ∧ s.shownActive = false
  step := step py

/-- While an update is available, the entity is in progress exactly if the job was shown active. -/
def Shown (s : State) : Prop := updateAvailable s.info = true → inProgress s.info = s.shownActive

/-- What the step should do. -/
def KeepsLaw (s t : State) : Event → Prop
  | .lookup answer _ => Lawful (fun id => id.truthy = true) (view s.info) (view t.info) answer.outcome ∧ Shown t
  | .updatecheck _ => Shown t

/-- A lookup fails while the update runs and is available or the api is not connected any more; otherwise the
api is connected. A job is not shown waiting while an update is available, and an update
check does not replace the state of a job that was shown active. -/
def Meets (s : State) : Event → Prop
  | .lookup .failed connected => connected = true → inProgress s.info = true ∧ updateAvailable s.info = true
  | .lookup .missing connected => connected = true ∧ ¬ (inProgress s.info = true ∧ updateAvailable s.info = true)
  | .lookup (.job row) connected =>
    if (jobState row).eq (.str "RUNNING") then connected = true → updateAvailable s.info = true
    else if (jobState row).eq (.str "WAITING") then connected = false ∧ updateAvailable s.info = false
    else connected = true
  | .updatecheck update => update.available = true → (update.state = "RUNNING" ↔ s.shownActive = true)

section Steps
variable {py : Interpreter} {info row : Fields} {connected : Bool} {s t : State} {e : Event}

theorem read_set {field field' : String} {value : Value} :
    read (Mapping.set info field value) field' = if field' = field then value else read info field' := by
  unfold read
  rw [Mapping.lookup_set]
  split
  · rfl
  · rfl

theorem complete_set (h : Complete info) (field : String) (value : Value) :
    Complete (Mapping.set info field value) := by
  constructor
  · rw [Mapping.lookup_set]
    split
    · rfl
    · exact h.progress
  · rw [Mapping.lookup_set]
    split
    · rfl
    · exact h.state

theorem complete_settle (h : Complete info) : Complete (settle connected info) := by
  unfold settle
  split
  · exact complete_set (complete_set (complete_set h _ _) _ _) _ _
  · exact h

@[simp] theorem tracked_stopTracking : tracked (stopTracking info) = false := by
  simp [tracked,stopTracking,read_set,Value.truthy]

@[simp] theorem inProgress_stopTracking : inProgress (stopTracking info) = false := by
  simp [inProgress,stopTracking,read_set,Value.eq,Value.key?]

def readJob (info row : Fields) : Fields :=
  Mapping.set (Mapping.set info "update_progress" (jobPercent row)) "update_state" (jobState row)

@[simp] theorem tracked_readJob : tracked (readJob info row) = tracked info := by simp [tracked,readJob,read_set]

@[simp] theorem updateAvailable_readJob : updateAvailable (readJob info row) = updateAvailable info := by
  simp [updateAvailable,readJob,read_set]

@[simp] theorem inProgress_readJob : inProgress (readJob info row) = (jobState row).eq (.str "RUNNING") := by
  simp [inProgress,readJob,read_set]

theorem handleUpdateJob_ok (h : Complete info) (ht : tracked info = true) (answer : Lookup) :
    handleUpdateJob py info answer.source connected = .ok (settle connected (match answer with
      | .job row => readJob info row
      | _ => info)) := by
  unfold handleUpdateJob
  rw [if_pos ht]
  cases answer with
  | failed | missing =>
    have hdefaults : parseApiSingle py { vals := updateJobVals } info (.list []) = .ok info :=
      congrArg Except.ok (fillDefaults_of_complete h)
    exact congrArg (Except.map (settle connected)) hdefaults
  | job row => rfl

theorem stops_iff : stops connected info = true ↔
    connected = true ∧ ¬ (inProgress info = true ∧ updateAvailable info = true) := by
  unfold stops
  cases connected <;> cases inProgress info <;> cases updateAvailable info <;> simp

theorem settle_of_stops (h : stops connected info = true) : settle connected info = stopTracking info := if_pos h

theorem settle_of_not_stops (h : ¬ stops connected info = true) : settle connected info = info := if_neg h

theorem lookup_failed_iff (ht : tracked s.info = true) (hshown : Shown s) :
    KeepsLaw s ⟨settle connected s.info,s.shownActive⟩ (.lookup .failed connected) ↔
      Meets s (.lookup .failed connected) := by
  have hmeets : Meets s (.lookup .failed connected) ↔ ¬ stops connected s.info = true := by
    rw [stops_iff]
    unfold Meets
    tauto
  rw [hmeets]
  constructor
  · rintro ⟨hlaw,_⟩ hstop
    rw [settle_of_stops hstop] at hlaw
    have hid : tracked (stopTracking s.info) = tracked s.info := congrArg (fun v => v.id.truthy) hlaw
    rw [tracked_stopTracking,ht] at hid
    cases hid
  · intro hstop
    rw [settle_of_not_stops hstop]
    exact ⟨rfl,hshown⟩

theorem lookup_missing_iff (ht : tracked s.info = true) :
    KeepsLaw s ⟨settle connected s.info,false⟩ (.lookup .missing connected) ↔ Meets s (.lookup .missing connected) := by
  have hmeets : Meets s (.lookup .missing connected) ↔ stops connected s.info = true := by
    rw [stops_iff]
    rfl
  rw [hmeets]
  constructor
  · rintro ⟨hlaw,_⟩
    by_contra hstop
    rw [settle_of_not_stops hstop] at hlaw
    exact hlaw ht
  · intro hstop
    rw [settle_of_stops hstop]
    exact ⟨ne_true_of_eq_false tracked_stopTracking,fun _ => inProgress_stopTracking⟩

theorem lawful_active_iff (ht : tracked s.info = true) :
    Lawful (fun id => id.truthy = true) (view s.info) (view (settle connected (readJob s.info row)))
      (.active (jobPercent row)) ↔
      ¬ stops connected (readJob s.info row) = true := by
  constructor
  · rintro ⟨hid,_⟩ hstop
    rw [settle_of_stops hstop] at hid
    have htruthy : tracked (stopTracking (readJob s.info row)) = tracked s.info := congrArg Value.truthy hid
    rw [tracked_stopTracking,ht] at htruthy
    cases htruthy
  · intro hstop
    rw [settle_of_not_stops hstop]
    exact ⟨by simp [view,readJob,read_set],by simp [view,readJob,read_set]⟩

theorem lawful_ended_iff (ht : tracked s.info = true) :
    Lawful (fun id => id.truthy = true) (view s.info) (view (settle connected (readJob s.info row))) .ended ↔
      stops connected (readJob s.info row) = true := by
  constructor
  · intro hlaw
    by_contra hstop
    rw [settle_of_not_stops hstop] at hlaw
    exact hlaw (tracked_readJob.trans ht)
  · intro hstop
    rw [settle_of_stops hstop]
    exact ne_true_of_eq_false tracked_stopTracking

theorem stops_readJob_iff : stops connected (readJob s.info row) = true ↔
    connected = true ∧ ¬ ((jobState row).eq (.str "RUNNING") = true ∧ updateAvailable s.info = true) := by
  rw [stops_iff,inProgress_readJob,updateAvailable_readJob]

theorem shown_of_not_stops {shown : Bool} (h : ¬ stops connected (readJob s.info row) = true) :
    Shown ⟨settle connected (readJob s.info row),shown⟩ ↔
      (updateAvailable s.info = true → (jobState row).eq (.str "RUNNING") = shown) := by
  rw [settle_of_not_stops h]
  unfold Shown
  rw [inProgress_readJob,updateAvailable_readJob]

theorem lookup_running_iff (ht : tracked s.info = true) (hrun : (jobState row).eq (.str "RUNNING") = true) :
    KeepsLaw s ⟨settle connected (readJob s.info row),jobActive row⟩ (.lookup (.job row) connected) ↔
      Meets s (.lookup (.job row) connected) := by
  have hactive : jobActive row = true := by simp [jobActive,hrun]
  have hmeets : Meets s (.lookup (.job row) connected) ↔ ¬ stops connected (readJob s.info row) = true := by
    rw [stops_readJob_iff]
    simp only [Meets,hrun,if_true,true_and]
    tauto
  unfold KeepsLaw Lookup.outcome
  simp only [hactive,if_true]
  rw [lawful_active_iff ht,hmeets]
  exact and_iff_left_of_imp (fun hstop => (shown_of_not_stops hstop).mpr (fun _ => hrun))

theorem lookup_waiting_iff (ht : tracked s.info = true) (hrun : (jobState row).eq (.str "RUNNING") = false)
    (hwait : (jobState row).eq (.str "WAITING") = true) :
    KeepsLaw s ⟨settle connected (readJob s.info row),jobActive row⟩ (.lookup (.job row) connected) ↔
      Meets s (.lookup (.job row) connected) := by
  have hactive : jobActive row = true := by simp [jobActive,hwait]
  have hstop : ¬ stops connected (readJob s.info row) = true ↔ connected = false := by
    rw [stops_readJob_iff]
    simp [hrun]
  unfold KeepsLaw Lookup.outcome
  simp only [hactive,if_true]
  rw [lawful_active_iff ht,and_congr_right (fun h => shown_of_not_stops h),hstop]
  simp [Meets,hrun,hwait]

theorem lookup_ended_iff (ht : tracked s.info = true) (hrun : (jobState row).eq (.str "RUNNING") = false)
    (hwait : (jobState row).eq (.str "WAITING") = false) :
    KeepsLaw s ⟨settle connected (readJob s.info row),jobActive row⟩ (.lookup (.job row) connected) ↔
      Meets s (.lookup (.job row) connected) := by
  have hactive : jobActive row = false := by simp [jobActive,hrun,hwait]
  have hmeets : Meets s (.lookup (.job row) connected) ↔ stops connected (readJob s.info row) = true := by
    rw [stops_readJob_iff]
    simp [Meets,hrun,hwait]
  unfold KeepsLaw Lookup.outcome
  simp only [hactive,Bool.false_eq_true,if_false]
  rw [lawful_ended_iff ht,hmeets]
  refine and_iff_left_of_imp (fun hstop => ?_)
  rw [settle_of_stops hstop]
  exact fun _ => inProgress_stopTracking

theorem lookup_job_iff (ht : tracked s.info = true) :
    KeepsLaw s ⟨settle connected (readJob s.info row),jobActive row⟩ (.lookup (.job row) connected) ↔
      Meets s (.lookup (.job row) connected) := by
  cases hrun : (jobState row).eq (.str "RUNNING") with
  | true => exact lookup_running_iff ht hrun
  | false =>
    cases hwait : (jobState row).eq (.str "WAITING") with
    | true => exact lookup_waiting_iff ht hrun hwait
    | false => exact lookup_ended_iff ht hrun hwait

theorem updatecheck_iff (update : UpdateCheck) :
    KeepsLaw s { s with info := getUpdatecheck s.info update } (.updatecheck update) ↔
      Meets s (.updatecheck update) := by
  have havailable : updateAvailable (getUpdatecheck s.info update) = update.available := by
    simp [updateAvailable,getUpdatecheck,read_set,Value.truthy]
  have hprogress : inProgress (getUpdatecheck s.info update) = decide (update.state = "RUNNING") := by
    simp [inProgress,getUpdatecheck,read_set,Value.eq,Value.key?]
  unfold KeepsLaw Shown Meets
  simp only [havailable,hprogress]
  refine imp_congr_right (fun _ => ?_)
  rw [Bool.eq_iff_iff,decide_eq_true_iff]

theorem keepsLaw_iff_meets (hc : Complete s.info) (hshown : Shown s) (hs : step py s e = some t) :
    KeepsLaw s t e ↔ Meets s e := by
  cases e with
  | updatecheck update =>
    obtain rfl := Option.some.inj hs
    exact updatecheck_iff update
  | lookup answer connected =>
    unfold step at hs
    simp only at hs
    split at hs
    · rename_i ht
      rw [handleUpdateJob_ok hc ht] at hs
      obtain rfl := Option.some.inj hs
      cases answer with
      | failed => exact lookup_failed_iff ht hshown
      | missing => exact lookup_missing_iff ht
      | job row => exact lookup_job_iff ht
    · cases hs

theorem complete_step (hc : Complete s.info) (hs : step py s e = some t) : Complete t.info := by
  cases e with
  | updatecheck update =>
    obtain rfl := Option.some.inj hs
    exact complete_set (complete_set hc _ _) _ _
  | lookup answer connected =>
    unfold step at hs
    simp only at hs
    split at hs
    · rename_i ht
      rw [handleUpdateJob_ok hc ht] at hs
      obtain rfl := Option.some.inj hs
      cases answer with
      | failed | missing => exact complete_settle hc
      | job row => exact complete_settle (complete_set (complete_set hc _ _) _ _)
    · cases hs

theorem shown_of_keepsLaw (h : KeepsLaw s t e) : Shown t := by
  cases e with
  | lookup => exact h.2
  | updatecheck => exact h

theorem shown_of_reach (h : (tracker py).Reach Meets s) : Complete s.info ∧ Shown s := by
  refine System.Reach.invariant (I := fun s => Complete s.info ∧ Shown s) ?_ (fun hi hm hs => ?_) h
  · rintro s ⟨hc,_,hprogress,hshown⟩
    exact ⟨hc,fun _ => hprogress.trans hshown.symm⟩
  · exact ⟨complete_step hi.1 hs,shown_of_keepsLaw ((keepsLaw_iff_meets hi.1 hi.2 hs).mpr hm)⟩

end Steps

/-- In a run whose steps meet the condition, while an update is available the entity is in progress exactly if
the last successful lookup showed the job active, and the next step keeps the law exactly if it meets the
condition too. The app path keeps the law at every lookup. -/
theorem tracks_as_app_iff (py : Interpreter) :
    (∀ s, (tracker py).Reach Meets s → Shown s ∧ ∀ e t, step py s e = some t → (KeepsLaw s t e ↔ Meets s e)) ∧
      ∀ vals answer, Lawful (fun id =>
        id.isSome = true) (appView vals) (appView (AppUpdate.State.recordAnswer answer vals))
        (appOutcome answer) :=
  ⟨fun _ h => ⟨(shown_of_reach h).2,fun _ _ hs => keepsLaw_iff_meets (shown_of_reach h).1 (shown_of_reach h).2 hs⟩,
    lawful_recordAnswer⟩

/-- Job 5 behind `async_install`. -/
def installed : State where
  info := [("update_available",.bool true),("update_progress",.int 0),("update_jobid",.int 5),
    ("update_state",.str "AVAILABLE")]
  shownActive := false

theorem init_installed (py : Interpreter) : (tracker py).init installed := ⟨⟨rfl,rfl⟩,rfl,by decide,rfl⟩

def running : Lookup := .job [("state",.str "RUNNING"),("progress",.dict [("percent",.int 40)])]

/-- A failed lookup after one that showed the job running. -/
theorem tracks_as_app_iff_running :
    let shown : State :=
      ⟨readJob installed.info [("state",.str "RUNNING"),("progress",.dict [("percent",.int 40)])],true⟩
    Shown shown ∧ (∀ e t, step plain shown e = some t → (KeepsLaw shown t e ↔ Meets shown e)) ∧
      Meets shown (.lookup .failed true) := by
  have hreach : (tracker plain).Reach Meets installed := .init (init_installed plain)
  have hmeets : Meets installed (.lookup running true) := fun _ => rfl
  have hshown := (tracks_as_app_iff plain).1 _ (hreach.step hmeets rfl)
  exact ⟨hshown.1,hshown.2,fun _ => ⟨by decide,rfl⟩⟩

/-- The first lookup finds the job queued, and the job is not tracked any more. -/
theorem not_keepsLaw_of_waiting :
    ¬ ∀ py s e t, (tracker py).Reachable s → step py s e = some t → KeepsLaw s t e := by
  intro hall
  obtain ⟨⟨hid,_⟩,_⟩ := hall plain installed (.lookup (.job [("state",.str "WAITING")]) true) _
    (.init (init_installed plain)) rfl
  cases hid

end TruenasCE.SystemUpdate
