import TruenasCE.AppUpdate.Coordinator
import TruenasCE.AppUpdate.Scan

/-! # Upgrade jobs read from JSON

The rows and the jobs of the scan are JSON, those of the update machinery are typed. As long as ids are
numbers and states are texts, the functions of the coordinator are the same on both: what they leave, read
as typed rows, is what they leave of the rows that are read.
-/
namespace TruenasCE.AppUpdate.Scan
open Library ApiParser

def jobStateOf : String → JobState
  | "WAITING" => .waiting
  | "RUNNING" => .running
  | "SUCCESS" => .success
  | "FAILED" => .failed
  | "ABORTED" => .aborted
  | "unknown" => .unknown
  | "" => .unknown
  | text => .other text

def appStateOf : String → AppState
  | "RUNNING" => .running
  | "STOPPED" => .stopped
  | "CRASHED" => .crashed
  | text => .other text

def textView : Value → String
  | .str text => text
  | _ => ""

def numberView : Value → ℕ
  | .int i => i.toNat
  | _ => 0

def idView (value : Value) : Option JobId := if numberView value = 0 then none else some (numberView value)

def trackingView (vals : Fields) : Tracking where
  updateJobid := idView (dictGet vals "update_jobid")
  updateProgress := numberView (dictGet vals "update_progress")
  updateState := jobStateOf (textView (dictGet vals "update_state"))
  updateDescription := textView (dictGet vals "update_description")
  updateAdoptedJobid := idView (dictGet vals "update_adopted_jobid")
  updateEndedJobid := idView (dictGet vals "update_ended_jobid")

def appStateView (vals : Fields) : AppState := appStateOf (textView (dictGet vals "state"))

def rowView (vals : Fields) : Row := ⟨appStateView vals,trackingView vals⟩

def rowsView (rows : Rows) : AppMap := fun uid => (rows.lookup uid).map rowView

def listingView (listing : Rows) : List (Uid × AppState) := listing.map (fun p => (p.1,appStateView p.2))

def argumentView (b : Builtins) : Value → Option Uid
  | .list (arg :: _) => if arg.truthy then some (b.str arg) else none
  | _ => none

def recordView (b : Builtins) (job : Value) : JobRecord where
  id := idView (jobField job "id")
  method := textView (jobField job "method")
  state := jobStateOf (textView (jobField job "state"))
  argument := argumentView b (jobField job "arguments")

/-- The fields of `job.get("progress") or {}` -/
def progressFields (job : Fields) : Fields :=
  match dictGet job "progress" with
  | .dict progress => progress
  | _ => []

def jobView (job : Fields) : Job where
  state := jobStateOf (textView (dictGet job "state"))
  percent := numberView (dictGet (progressFields job) "percent")
  description := textView (dictGet (progressFields job) "description")
  error := textView (dictGet job "error")

def answerView : Value → LookupAnswer
  | .list (.dict job :: _) => .job (jobView job)
  | .list _ => .missing
  | _ => .failed

/-- A number that counts, or nothing -/
def IsNumber (value : Value) : Prop := value = .none ∨ ∃ k : ℕ, value = .int k

def IsText (value : Value) : Prop := value = .none ∨ ∃ text, value = .str text

def PlainRows (rows : Rows) : Prop := ∀ uid vals, rows.lookup uid = some vals → IsNumber (dictGet vals "update_jobid")

def PlainJob (job : Value) : Prop := IsNumber (jobField job "id") ∧ IsText (jobField job "state")

structure PlainAnswer (job : Fields) : Prop where
  state : IsText (dictGet job "state")
  progress : dictGet job "progress" = .none ∨ ∃ fields, dictGet job "progress" = .dict fields
  percent : IsNumber (dictGet (progressFields job) "percent")
  description : IsText (dictGet (progressFields job) "description")

structure Builtins.Plain (b : Builtins) : Prop where
  str : ∀ text, b.str (.str text) = text
  int : ∀ i, b.int (.int i) = .ok i

section Values
variable {value value' : Value}

theorem truthy_of_number (h : IsNumber value) : value.truthy = (idView value).isSome := by
  rcases h with rfl | ⟨k,rfl⟩
  · rfl
  · by_cases hk : k = 0 <;> simp [Value.truthy,idView,numberView,hk]

theorem eq_int (k l : ℕ) : (Value.int k).eq (.int l) = decide (k = l) := by
  simp only [Value.eq,Value.key?,Key.number.injEq,Rat.intCast_inj,Int.natCast_inj]

theorem eq_of_number (h : IsNumber value) (h' : IsNumber value') (ht : value.truthy = true) :
    value.eq value' = decide (idView value = idView value') := by
  rcases h with rfl | ⟨k,rfl⟩
  · cases ht
  · have hk : k ≠ 0 := by simpa [Value.truthy] using ht
    rcases h' with rfl | ⟨l,rfl⟩
    · simp [Value.eq,Value.key?,idView,numberView,hk]
    · rw [eq_int]
      by_cases hl : l = 0 <;> simp [idView,numberView,hk,hl]

theorem active_jobStateOf (text : String) : (jobStateOf text).Active ↔ text ∈ Scan.appUpdateJobActiveStates := by
  unfold jobStateOf JobState.Active
  split <;> simp_all [Scan.appUpdateJobActiveStates,AppUpdate.appUpdateJobActiveStates]

theorem inActiveStates_of_text (h : IsText value) :
    inActiveStates value = .ok (decide (jobStateOf (textView value)).Active) := by
  rcases h with rfl | ⟨text,rfl⟩
  · rfl
  · simp [inActiveStates,Value.key?,textView,active_jobStateOf]

theorem eq_text (text : String) (ht : text ≠ "") : value.eq (.str text) = decide (textView value = text) := by
  rw [Bool.eq_iff_iff,Value.eq_str_iff,decide_eq_true_eq]
  cases value with
  | str s => simp [textView]
  | none | bool | int | float | list | dict | datetime => simp [textView,Ne.symm ht]

end Values

section Operations
variable {b : Builtins} {rows : Rows} {job : Value} {jobs : List Value} {uid : String} {vals : Fields} {acc : Bool}

theorem rowsView_set (rows : Rows) (uid : String) (vals : Fields) :
    rowsView (Mapping.set rows uid vals) = Function.update (rowsView rows) uid (some (rowView vals)) := by
  funext u
  rw [rowsView,Mapping.lookup_set,Function.update_apply]
  split
  · rfl
  · rfl

theorem PlainRows.set (h : PlainRows rows) (hvals : IsNumber (dictGet vals "update_jobid")) :
    PlainRows (Mapping.set rows uid vals) := by
  intro u vals' hrow
  rw [Mapping.lookup_set] at hrow
  split at hrow
  · cases hrow
    exact hvals
  · exact h u vals' hrow

theorem rowView_carryFields (carried vals : Fields) :
    rowView (carryFields carried vals) = ⟨appStateView vals,trackingView carried⟩ := by
  have hid : ∀ name, idView ((carried.lookup name).getD (.int 0)) = idView (dictGet carried name) := by
    intro name
    unfold dictGet
    cases carried.lookup name <;> rfl
  have hnumber : numberView ((carried.lookup "update_progress").getD (.int 0)) =
      numberView (dictGet carried "update_progress") := by
    unfold dictGet
    cases carried.lookup "update_progress" <;> rfl
  have hstate : jobStateOf (textView ((carried.lookup "update_state").getD (.str "unknown"))) =
      jobStateOf (textView (dictGet carried "update_state")) := by
    unfold dictGet
    cases carried.lookup "update_state" <;> rfl
  have htext : textView ((carried.lookup "update_description").getD (.str "")) =
      textView (dictGet carried "update_description") := by
    unfold dictGet
    cases carried.lookup "update_description" <;> rfl
  simp [rowView,appStateView,trackingView,carryFields,appUpdateJobDefaults,dictGet_set,hid,hnumber,hstate,htext]

theorem rowsView_refreshApp (previous listing : Rows) :
    rowsView (refreshApp previous listing) = carryJobFields (rowsView previous) (listingView listing) := by
  funext uid
  have hlisting : (listingView listing).lookup uid = (listing.lookup uid).map appStateView :=
    Mapping.lookup_map_value (f := fun _ => appStateView)
  rw [rowsView,refreshApp,Mapping.lookup_map_value (f := fun name => carryFields ((previous.lookup name).getD [])),
    carryJobFields,hlisting]
  cases listing.lookup uid with
  | none => rfl
  | some vals =>
    have hcarried : trackingView ((previous.lookup uid).getD []) = ((rowsView previous uid).map Row.job).getD {} := by
      rw [rowsView]
      cases previous.lookup uid <;> rfl
    simp [rowView_carryFields,hcarried]

theorem upgradeJobApp_view (b : Builtins) (h : PlainJob job) :
    upgradeJobApp b job = .ok (AppUpdate.upgradeJobApp (recordView b job)) := by
  cases job with
  | dict fields =>
    have hid : IsNumber (dictGet fields "id") := h.1
    have hstate : IsText (dictGet fields "state") := h.2
    unfold upgradeJobApp AppUpdate.upgradeJobApp
    simp only [recordView,jobField,truthy_of_number hid,eq_text "app.upgrade" (by decide),inActiveStates_of_text hstate]
    by_cases hk : idView (dictGet fields "id") = none
    · simp [hk]
    by_cases hm : textView (dictGet fields "method") = "app.upgrade"
    · by_cases ha : (jobStateOf (textView (dictGet fields "state"))).Active
      · simp only [hk,hm,ha,Option.isSome_iff_ne_none.mpr hk,Except.map]
        unfold argumentView
        cases dictGet fields "arguments" with
        | list args => cases args <;> rfl
        | none | bool | int | float | str | dict | datetime => rfl
      · simp [hm,ha,Option.isSome_iff_ne_none.mpr hk,Except.map]
    · simp [hm]
  | none | bool | int | float | str | list | datetime => rfl

theorem rowView_adoptRow (b : Builtins) (job : Value) (vals : Fields) :
    rowView (adoptRow job vals) = AppUpdate.adoptRow (recordView b job) (rowView vals) := by
  simp [rowView,appStateView,trackingView,adoptRow,AppUpdate.adoptRow,recordView,dictGet_set]

variable (acc) in
/-- The loop of the scan leaves the rows, and the flag, that the typed one leaves of the rows and jobs that are read. -/
theorem adoptJobs_view (hrows : PlainRows rows) (hjobs : ∀ job ∈ jobs, PlainJob job) :
    PlainRows (adoptJobs b rows acc jobs).1 ∧ ∃ adoptedAll, (adoptJobs b rows acc jobs).2 = .ok adoptedAll ∧
      (jobs.map (recordView b)).foldl adoptJob (rowsView rows,acc) =
        (rowsView (adoptJobs b rows acc jobs).1,adoptedAll) := by
  induction jobs generalizing rows acc with
  | nil => exact ⟨hrows,acc,rfl,rfl⟩
  | cons job rest ih =>
    obtain ⟨hjob,hrest⟩ := List.forall_mem_cons.mp hjobs
    have hview := upgradeJobApp_view b hjob
    rw [List.map_cons,List.foldl_cons]
    cases meets b rows job with
    | raised raised h => simp [hview] at h
    | skipped h =>
      have happ : AppUpdate.upgradeJobApp (recordView b job) = none := by simpa [hview] using h
      rw [adoptJobs_skipped h]
      simpa [adoptJob,happ] using ih _ hrows hrest
    | unlisted uid h hrow =>
      have happ : AppUpdate.upgradeJobApp (recordView b job) = some uid := by simpa [hview] using h
      have hnone : rowsView rows uid = none := by simp [rowsView,hrow]
      rw [adoptJobs_unlisted h hrow]
      simpa [adoptJob,happ,hnone] using ih _ hrows hrest
    | tracked uid vals h hrow ht =>
      have happ : AppUpdate.upgradeJobApp (recordView b job) = some uid := by simpa [hview] using h
      have hsome : rowsView rows uid = some (rowView vals) := by simp [rowsView,hrow]
      have hnumber := hrows uid vals hrow
      obtain ⟨k,hk⟩ := Option.isSome_iff_exists.mp ((truthy_of_number hnumber).symm.trans ht)
      have heq := eq_of_number hnumber hjob.1 ht
      have hid : (rowView vals).job.updateJobid = some k := hk
      have hstep : adoptJob (rowsView rows,acc) (recordView b job) =
          (rowsView rows,acc && decide (some k = idView (jobField job "id"))) := by
        have hbeq : (some k == (recordView b job).id) = decide (some k = idView (jobField job "id")) := by
          rw [Bool.eq_iff_iff,beq_iff_eq,decide_eq_true_eq]
          rfl
        simp only [adoptJob,happ,hsome,hid,hbeq]
      rw [adoptJobs_tracked h hrow ht,heq,hk,hstep]
      exact ih _ hrows hrest
    | idle uid vals h hrow ht =>
      have happ : AppUpdate.upgradeJobApp (recordView b job) = some uid := by simpa [hview] using h
      have hsome : rowsView rows uid = some (rowView vals) := by simp [rowsView,hrow]
      have hid : (rowView vals).job.updateJobid = none := by
        have hnone := (truthy_of_number (hrows uid vals hrow)).symm.trans ht
        simpa [rowView,trackingView] using hnone
      have hset : PlainRows (Mapping.set rows uid (adoptRow job vals)) :=
        hrows.set (by rw [jobid_adoptRow]; exact hjob.1)
      rw [adoptJobs_idle h hrow ht]
      simpa [adoptJob,happ,hsome,hid,rowsView_set,rowView_adoptRow b] using ih _ hset hrest

theorem rowView_reset (vals : Fields) (text : String) : rowView (resetAppUpdateJob vals text) =
    { rowView vals with job := AppUpdate.resetAppUpdateJob (rowView vals).job (jobStateOf text) } := by
  have hzero : idView (.int 0) = none := rfl
  simp [rowView,appStateView,trackingView,resetAppUpdateJob,AppUpdate.resetAppUpdateJob,dictGet_set,textView,hzero]

theorem stateView_orElse {b : Builtins} (hb : b.Plain) {value : Value} (h : IsText value) :
    jobStateOf (b.str (orElse value (.str "unknown"))) = jobStateOf (textView value) := by
  rcases h with rfl | ⟨text,rfl⟩
  · rw [orElse,if_neg (by decide),hb.str]
    rfl
  · by_cases ht : text = ""
    · subst ht
      rw [orElse,if_neg (by decide),hb.str]
      rfl
    · rw [orElse,if_pos (by simpa [Value.truthy] using ht),hb.str]
      rfl

theorem textView_orElse {b : Builtins} (hb : b.Plain) {value : Value} (h : IsText value) :
    b.str (orElse value (.str "")) = textView value := by
  rcases h with rfl | ⟨text,rfl⟩
  · exact hb.str ""
  · by_cases ht : text = ""
    · subst ht
      exact hb.str ""
    · rw [orElse,if_pos (by simpa [Value.truthy] using ht),hb.str]
      rfl

theorem numberView_orElse {b : Builtins} (hb : b.Plain) {value : Value} (h : IsNumber value) :
    b.int (orElse value (.int 0)) = .ok (numberView value : ℤ) := by
  rcases h with rfl | ⟨k,rfl⟩
  · exact hb.int 0
  · by_cases hk : k = 0
    · subst hk
      exact hb.int 0
    · rw [orElse,if_pos (by simpa [Value.truthy] using hk),hb.int]
      rfl

theorem progressOf_view {b : Builtins} (hb : b.Plain) {job : Fields} (h : PlainAnswer job) :
    progressOf b job = .ok (((jobView job).percent : ℤ),(jobView job).description) := by
  have hprogress : orElse (dictGet job "progress") (.dict []) = .dict (progressFields job) := by
    unfold progressFields
    rcases h.progress with hp | ⟨fields,hp⟩
    · rw [hp]
      rfl
    · rw [hp]
      cases fields <;> rfl
  simp only [progressOf,hprogress,numberView_orElse hb h.percent,textView_orElse hb h.description,Except.map]
  rfl

theorem rowView_record {b : Builtins} (hb : b.Plain) {job : Fields} (h : PlainAnswer job) (vals : Fields) :
    rowView (recordAppUpdateJob b vals job) =
      { rowView vals with job := AppUpdate.recordAppUpdateJob (rowView vals).job (jobView job) } := by
  have hstate : jobStateOf (b.str (orElse (dictGet job "state") (.str "unknown"))) = (jobView job).state :=
    stateView_orElse hb h.state
  have hactive := active_jobStateOf (b.str (orElse (dictGet job "state") (.str "unknown")))
  rw [hstate] at hactive
  unfold recordAppUpdateJob AppUpdate.recordAppUpdateJob
  simp only [progressOf_view hb h,← hactive]
  split
  · simp [rowView,appStateView,trackingView,dictGet_set,textView,numberView,hstate]
  · rw [rowView_reset,hstate]
    simp [rowView,appStateView,trackingView,dictGet_set,textView,numberView,hstate]

/-- The answer of a lookup is none, a list without the job, or a list of jobs with the one looked up in front. -/
inductive Readable : Value → Prop
  | failed : Readable .none
  | missing {items : Value} : answerView items = .missing → Readable items
  | job {job : Fields} {rest : List Value} : PlainAnswer job → Readable (.list (.dict job :: rest))

theorem isNumber_reset (vals : Fields) (text : String) :
    IsNumber (dictGet (resetAppUpdateJob vals text) "update_jobid") := by
  refine Or.inr ⟨0,?_⟩
  simp [resetAppUpdateJob,dictGet_set]

theorem isNumber_record {b : Builtins} {job : Fields} (h : IsNumber (dictGet vals "update_jobid")) :
    IsNumber (dictGet (recordAppUpdateJob b vals job) "update_jobid") := by
  unfold recordAppUpdateJob
  split
  · simpa [dictGet_set] using h
  · dsimp only
    split
    · simpa [dictGet_set] using h
    · exact isNumber_reset _ _

section Lookup
variable {jobId answer : Value}

theorem refresh_unlisted (b : Builtins) (jobId answer : Value) (hrow : rows.lookup uid = none) :
    refreshAppUpdateJob b rows uid jobId answer = rows := by
  unfold refreshAppUpdateJob
  rw [hrow]
  split
  · rfl
  · contradiction
  · rfl

theorem refresh_untracked (b : Builtins) (answer : Value) (hrow : rows.lookup uid = some vals)
    (hne : (dictGet vals "update_jobid").eq jobId = false) : refreshAppUpdateJob b rows uid jobId answer = rows := by
  unfold refreshAppUpdateJob
  rw [hrow]
  split
  · rfl
  · rename_i hvals _
    rw [Option.some.inj hvals] at hne
    simp [hne]
  · rfl

theorem firstJob_of_missing (h : answerView answer = .missing) : answer ≠ .none ∧ firstJob answer = .ok none := by
  cases answer with
  | list items =>
    cases items with
    | nil => exact ⟨Value.noConfusion,rfl⟩
    | cons head rest =>
      cases head with
      | dict job => cases h
      | none | bool | int | float | str | list | datetime => exact ⟨Value.noConfusion,rfl⟩
  | none | bool | int | float | str | dict | datetime => cases h

theorem refresh_missing (b : Builtins) (hrow : rows.lookup uid = some vals)
    (heq : (dictGet vals "update_jobid").eq jobId = true) (h : answerView answer = .missing) :
    refreshAppUpdateJob b rows uid jobId answer = Mapping.set rows uid (resetAppUpdateJob vals "unknown") := by
  obtain ⟨hne,hfirst⟩ := firstJob_of_missing h
  unfold refreshAppUpdateJob
  rw [hfirst,hrow]
  simp [heq]

theorem refresh_job (b : Builtins) (job : Fields) (rest : List Value) (hrow : rows.lookup uid = some vals)
    (heq : (dictGet vals "update_jobid").eq jobId = true) :
    refreshAppUpdateJob b rows uid jobId (.list (.dict job :: rest)) =
      Mapping.set rows uid (recordAppUpdateJob b vals job) := by
  have hfirst : firstJob (.list (.dict job :: rest)) = .ok (some job) := rfl
  unfold refreshAppUpdateJob
  rw [hfirst,hrow]
  simp [heq]

end Lookup

theorem eq_id {value : Value} (h : IsNumber value) {k : JobId} (hk : k ≠ 0) :
    value.eq (.int k) = decide (idView value = some k) := by
  rcases h with rfl | ⟨l,rfl⟩
  · rfl
  · rw [eq_int]
    by_cases hl : l = 0
    · simp [idView,numberView,hl,Ne.symm hk]
    · simp [idView,numberView,hl]

/-- The answer to a lookup changes the row of its app as the typed answer changes the row that is read. -/
theorem refreshAppUpdateJob_view {b : Builtins} (hb : b.Plain) (hrows : PlainRows rows) {k : JobId} (hk : k ≠ 0)
    {answer : Value} (h : Readable answer) (u : Uid) : PlainRows (refreshAppUpdateJob b rows uid (.int k) answer) ∧
      rowsView (refreshAppUpdateJob b rows uid (.int k) answer) u =
        if u = uid ∧ (rowsView rows uid).bind (fun row => row.job.updateJobid) = some k then
          (rowsView rows u).map (fun row => { row with job := State.recordAnswer (answerView answer) row.job })
        else rowsView rows u := by
  cases hrow : rows.lookup uid with
  | none =>
    have hview : rowsView rows uid = none := by simp [rowsView,hrow]
    rw [refresh_unlisted b _ answer hrow,hview]
    exact ⟨hrows,by simp⟩
  | some vals =>
    have hnumber := hrows uid vals hrow
    have hview : rowsView rows uid = some (rowView vals) := by simp [rowsView,hrow]
    have heq := eq_id hnumber hk
    have hset : ∀ vals', rowView vals' = { rowView vals with job := State.recordAnswer (answerView answer) (rowView vals).job } →
        (dictGet vals "update_jobid").eq (.int k) = true → rowsView (Mapping.set rows uid vals') u =
          if u = uid ∧ (rowsView rows uid).bind (fun row => row.job.updateJobid) = some k then
            (rowsView rows u).map (fun row => { row with job := State.recordAnswer (answerView answer) row.job })
          else rowsView rows u := by
      intro vals' hvals' ht
      have hid : (rowView vals).job.updateJobid = some k := of_decide_eq_true (heq.symm.trans ht)
      rw [rowsView_set,hview,Function.update_apply]
      by_cases hu : u = uid
      · subst hu
        simp [hview,hid,hvals']
      · simp [hu]
    by_cases ht : (dictGet vals "update_jobid").eq (.int k) = true
    · cases h with
      | failed =>
        refine ⟨hrows,?_⟩
        have hid : ∀ row : Row, { row with job := State.recordAnswer (answerView .none) row.job } = row := fun _ => rfl
        simp [refreshAppUpdateJob,hid]
      | missing hm =>
        rw [refresh_missing b hrow ht hm]
        refine ⟨hrows.set (isNumber_reset vals "unknown"),hset _ ?_ ht⟩
        rw [rowView_reset,hm]
        rfl
      | @job job rest hjob =>
        rw [refresh_job b job rest hrow ht]
        exact ⟨hrows.set (isNumber_record hnumber),hset _ (rowView_record hb hjob vals) ht⟩
    · have hid : (rowView vals).job.updateJobid ≠ some k := fun hid => ht (heq.trans (decide_eq_true hid))
      rw [refresh_untracked b answer hrow (Bool.eq_false_iff.mpr ht),hview]
      exact ⟨hrows,by simp [hid]⟩

end Operations

/-- The typed state holds the rows that are read, and whether a scan has completed the adoption. -/
structure Views (s : State) (t : AppUpdate.State) : Prop where
  app : rowsView s.app = t.app
  adopted : s.appUpgradeJobsAdopted = t.adopted
  plain : PlainRows s.app

namespace Views
variable {s : State} {t : AppUpdate.State} {b : Builtins}

theorem refreshApp (h : Views s t) (listing : Rows) :
    Views { s with app := Scan.refreshApp s.app listing } (t.publish (listingView listing)) where
  app := by rw [rowsView_refreshApp,h.app,State.app_publish]
  adopted := h.adopted
  plain := by
    intro uid vals hrow
    rw [Scan.refreshApp,Mapping.lookup_map_value (f := fun name => carryFields ((s.app.lookup name).getD []))] at hrow
    obtain ⟨listed,-,rfl⟩ := Option.map_eq_some_iff.mp hrow
    have hid : dictGet (carryFields ((s.app.lookup uid).getD []) listed) "update_jobid" =
        (((s.app.lookup uid).getD []).lookup "update_jobid").getD (.int 0) := by
      simp [carryFields,appUpdateJobDefaults,dictGet_set]
    rw [hid]
    cases hprev : s.app.lookup uid with
    | none => exact Or.inr ⟨0,rfl⟩
    | some carried =>
      have hnumber := h.plain uid carried hprev
      unfold dictGet at hnumber
      rw [Option.getD_some]
      cases hjob : carried.lookup "update_jobid" with
      | none => exact Or.inr ⟨0,rfl⟩
      | some value => rwa [hjob] at hnumber

theorem scanned (h : Views s t) {jobs : List Value} (hjobs : ∀ job ∈ jobs, PlainJob job) :
    Views (s.adoptRunningAppUpgradeJobs b (.list jobs)) (t.adoptRunningJobs (jobs.map (recordView b))) := by
  obtain ⟨hplain,adoptedAll,hdone,hview⟩ := adoptJobs_view (b := b) true h.plain hjobs
  have hrun : adoptRunning (jobs.map (recordView b)) t.app = (rowsView (adoptJobs b s.app true jobs).1,adoptedAll) := by
    rw [adoptRunning,← h.app,hview]
  have hscan : s.adoptRunningAppUpgradeJobs b (.list jobs) = ⟨(adoptJobs b s.app true jobs).1,adoptedAll,
      ⟨s.app,.list jobs,(adoptJobs b s.app true jobs).1,adoptedAll⟩ :: s.scans⟩ := by
    have hpair : adoptJobs b s.app true jobs = ((adoptJobs b s.app true jobs).1,.ok adoptedAll) := Prod.ext rfl hdone
    unfold State.adoptRunningAppUpgradeJobs
    dsimp only
    rw [hpair]
  rw [hscan]
  refine ⟨?_,?_,hplain⟩
  · have happ : (t.adoptRunningJobs (jobs.map (recordView b))).app = (adoptRunning (jobs.map (recordView b)) t.app).1 := by
      simp [AppUpdate.State.app,AppUpdate.State.adoptRunningJobs]
    rw [happ,hrun]
  · simp [AppUpdate.State.adoptRunningJobs,hrun]

theorem polled (h : Views s t) (hb : b.Plain) {uid : String} {k : JobId} (hk : k ≠ 0) {answer : Value}
    (hanswer : Readable answer) : Views { s with app := refreshAppUpdateJob b s.app uid (.int k) answer }
      (t.refreshAppUpdateJob uid k (answerView answer)).1 where
  app := by
    funext u
    rw [(refreshAppUpdateJob_view hb h.plain hk hanswer u).2,State.app_refreshAppUpdateJob,h.app]
    rfl
  adopted := by
    rw [State.refreshAppUpdateJob_rest]
    exact h.adopted
  plain := (refreshAppUpdateJob_view hb h.plain hk hanswer uid).1

end Views

/-- What the typed state becomes by an event of the scan's lifetime, with the same answer or the same rows -/
inductive Answered (b : Builtins) (t : AppUpdate.State) : Event → AppUpdate.State → Prop
  | refreshApp (listing : Rows) : Answered b t (.refreshApp listing) (t.publish (listingView listing))
  | scanned {jobs : List Value} : (∀ job ∈ jobs, PlainJob job) →
      Answered b t (.scanned (.list jobs)) (t.adoptRunningJobs (jobs.map (recordView b)))
  | polled {uid : String} {k : JobId} {answer : Value} : k ≠ 0 → Readable answer →
      Answered b t (.polled uid (.int k) answer) (t.refreshAppUpdateJob uid k (answerView answer)).1
  | written {rows : Rows} {t' : AppUpdate.State} : PlainRows rows → rowsView rows = t'.app → t'.adopted = t.adopted →
      Answered b t (.written rows) t'

/-- The states that both sides come to by the same events -/
inductive Beside (b : Builtins) : State → AppUpdate.State → Prop
  | start : Beside b ⟨[],false,[]⟩ .initial
  | step {s s' : State} {t t' : AppUpdate.State} {e : Event} : Beside b s t → (lifetime b).step s e = some s' →
      Answered b t e t' → Beside b s' t'

theorem Views.step {s s' : State} {t t' : AppUpdate.State} {b : Builtins} {e : Event} (h : Views s t) (hb : b.Plain)
    (hstep : (lifetime b).step s e = some s') (ha : Answered b t e t') : Views s' t' := by
  cases ha with
  | refreshApp listing =>
    cases hstep
    exact h.refreshApp listing
  | scanned hjobs =>
    simp only [lifetime] at hstep
    split at hstep
    · cases hstep
    · cases hstep
      exact h.scanned hjobs
  | polled hk hanswer =>
    simp only [lifetime] at hstep
    split at hstep
    · cases hstep
      exact h.polled hb hk hanswer
    · cases hstep
  | written hplain happ hadopted =>
    cases hstep
    exact ⟨happ,h.adopted.trans hadopted.symm,hplain⟩

/-- In every run the typed rows are the rows of JSON, read. -/
theorem views_of_beside {s : State} {t : AppUpdate.State} {b : Builtins} (hb : b.Plain) (h : Beside b s t) : Views s t := by
  induction h with
  | start => exact ⟨rfl,rfl,fun _ _ hrow => by cases hrow⟩
  | step _ hstep ha ih => exact ih.step hb hstep ha

end TruenasCE.AppUpdate.Scan
