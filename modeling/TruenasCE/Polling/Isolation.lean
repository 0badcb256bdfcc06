import TruenasCE.Polling.Retained

/-! # A whole poll

`_async_update_data` runs the jobs one by one and side by side. A job that raises fails nothing but itself, and a poll that
delivers leaves no job in the state of an earlier poll.
-/
namespace TruenasCE.Polling
open Library SystemData
open ApiParser (Fields Value Interpreter)

def gatheredJobs : List String :=
  ["get_systemstats","get_service","get_disk","get_dataset","get_vm","get_container","get_directoryservices",
    "get_cloudsync","get_replication","get_rsync","get_snapshottask","get_scrub","get_app","get_cronjob","get_alerts",
    "get_certificates","get_arc","get_smb","get_ups"]

/-- What a poll meets: whether the connection is there at each place where it is asked for, what each job gets, and the
order in which the gathered jobs end. -/
structure Poll (Flt Time Err : Type) where
  ensured : Bool
  connected : Bool
  info : InfoRun Flt Time
  interface : InterfaceReply
  stats : StatsReply Flt Err
  raised : String → Option Jobs.Raised
  staleEndpoints : String → Finset String
  gathered : List String
  order : gathered.Perm gatheredJobs
  poolConnected : Bool
  updateDue : Bool
  updatecheck : UpdateReply
  connectedAtEnd : Bool
  /-- Without a connection nothing is awaited from there on. -/
  offline : connected = false → updateDue = false ∧ connectedAtEnd = false

inductive UpdateFailed
  | connecting
  | permissionDenied
  | hostname
  | disconnected
  deriving DecidableEq, Repr

variable {Flt Time Err : Type}

def Poll.job (p : Poll Flt Time Err) (name : String) : Event Flt Time Err :=
  if name = "get_systemstats" then .systemstats p.stats
  else .other name (match p.raised name with
    | none => .returned
    | some err => .raised err) (p.staleEndpoints name)

/-- The jobs behind `get_systeminfo`. -/
def Poll.jobs (p : Poll Flt Time Err) : List (Event Flt Time Err) :=
  .interface p.interface :: p.gathered.map p.job ++ ((if p.poolConnected then [p.job "get_pool"] else []) ++
    [p.job "get_app_stats"])

def hostnameUsable (info : Fields) : Bool :=
  match (info.lookup "hostname").getD (.str "unknown") with
  | .str hostname => hostname ≠ "" ∧ hostname ≠ "unknown"
  | _ => false

variable (u : Decimals) (py : Interpreter)

def runJobs (s : Coordinator Flt Time Err) (p : Poll Flt Time Err) : Coordinator Flt Time Err × Option UpdateFailed :=
  let s := step u py s (.systeminfo p.info)
  if hostnameUsable s.systemInfo then (p.jobs.foldl (step u py) s,none)
  else (s,some (if "get_systeminfo" ∈ s.jobs.jobPermissionDenied then .permissionDenied else .hostname))

/-- `_async_update_data`, and why it fails if it does. -/
def updateData (s : Coordinator Flt Time Err) (p : Poll Flt Time Err) : Coordinator Flt Time Err × Option UpdateFailed :=
  if p.ensured = false then (s,some .connecting)
  else
    let ran := if p.connected then runJobs u py s p else (s,none)
    match ran.2 with
    | some failed => (ran.1,some failed)
    | none =>
      let s := if p.updateDue then step u py ran.1 (.updatecheck p.updatecheck) else ran.1
      (s,if p.connectedAtEnd then none else some .disconnected)

variable {u} {py}

def Event.name : Event Flt Time Err → String
  | .systeminfo _ => "get_systeminfo"
  | .interface _ => "get_interface"
  | .systemstats _ => "get_systemstats"
  | .updatecheck _ => "get_updatecheck"
  | .other name _ _ => name

/-- How a job ends that has been started in a state. -/
def Event.outcome (u : Decimals) (py : Interpreter) (s : Coordinator Flt Time Err) : Event Flt Time Err → Jobs.Outcome
  | .systeminfo run => (s.getSysteminfo u py run).2
  | .interface reply => (s.getInterface reply).2
  | .systemstats reply => (s.getSystemstats reply).2
  | .updatecheck reply => (s.getUpdatecheck reply).2
  | .other _ outcome _ => outcome

def raises : Jobs.Outcome → Bool
  | .raised _ => true
  | _ => false

variable {s : Coordinator Flt Time Err} {p : Poll Flt Time Err} {name : String}

theorem mem_jobFailing_runJob {jobs : Jobs.State} {ran : String} {outcome : Jobs.Outcome} (h : outcome ≠ .cancelled) :
    name ∈ (jobs.runJob ⟨some ran,""⟩ outcome).1.jobFailing ↔
      if name = ran then raises outcome = true else name ∈ jobs.jobFailing := by
  cases outcome with
  | cancelled => exact absurd rfl h
  | raised err =>
    refine Jobs.mem_noteFailure.trans ?_
    split
    · rename_i heq
      exact ⟨fun _ => rfl,fun _ => Or.inl heq⟩
    · rename_i hne
      exact or_iff_right hne
  | returned =>
    refine Finset.mem_erase.trans ?_
    split
    · rename_i heq
      exact ⟨fun hmem => absurd heq hmem.1,fun hraises => (by cases hraises)⟩
    · rename_i hne
      exact and_iff_right hne

theorem jobs_noteVersion (text : String) : (s.noteVersion u text).jobs = s.jobs := by
  unfold Coordinator.noteVersion
  split
  · rfl
  · rfl

theorem jobs_finishSysteminfo (run : InfoRun Flt Time) : (s.finishSysteminfo u py run).1.jobs = s.jobs := by
  unfold Coordinator.finishSysteminfo
  dsimp only
  split
  · rfl
  split
  · rfl
  · split
    · rfl
    · exact jobs_noteVersion _

theorem jobFailing_getSysteminfo (run : InfoRun Flt Time) :
    (s.getSysteminfo u py run).1.jobs.jobFailing = s.jobs.jobFailing := by
  unfold Coordinator.getSysteminfo
  split
  · rfl
  · rw [jobs_finishSysteminfo]
    rfl
  · rw [jobs_finishSysteminfo]
    rfl

theorem jobFailing_getInterface (reply : InterfaceReply) :
    (s.getInterface reply).1.jobs.jobFailing = s.jobs.jobFailing := by
  cases reply with
  | malformed => rfl
  | raised err => rfl
  | answered interfaces =>
    unfold Coordinator.getInterface
    dsimp only
    split
    · rfl
    · rfl

theorem jobFailing_getSystemstats (reply : StatsReply Flt Err) :
    (s.getSystemstats reply).1.jobs.jobFailing = s.jobs.jobFailing := by
  unfold Coordinator.getSystemstats
  cases reply with
  | raised err => rfl
  | failed err =>
    dsimp only
    split
    · rfl
    · rfl
  | answered stats =>
    dsimp only
    split
    · rfl
    · rfl

/-- A job that ends settles whether it is failing, and no other. -/
theorem mem_jobFailing_step (e : Event Flt Time Err) (h : e.outcome u py s ≠ .cancelled) :
    name ∈ (step u py s e).jobs.jobFailing ↔
      if name = e.name then raises (e.outcome u py s) = true else name ∈ s.jobs.jobFailing := by
  cases e with
  | systeminfo run =>
    refine (mem_jobFailing_runJob h).trans ?_
    rw [jobFailing_getSysteminfo]
    rfl
  | interface reply =>
    refine (mem_jobFailing_runJob h).trans ?_
    rw [jobFailing_getInterface]
    rfl
  | systemstats reply =>
    refine (mem_jobFailing_runJob h).trans ?_
    rw [jobFailing_getSystemstats]
    rfl
  | updatecheck reply =>
    refine (mem_jobFailing_runJob h).trans ?_
    cases reply <;> rfl
  | other ran outcome endpoints => exact mem_jobFailing_runJob h

theorem mem_jobFailing_foldl {ends : String → Jobs.Outcome} {events : List (Event Flt Time Err)}
    (h : ∀ e ∈ events, ∀ s, e.outcome u py s = ends e.name) (hends : ∀ name, ends name ≠ .cancelled) :
    name ∈ (events.foldl (step u py) s).jobs.jobFailing ↔
      if name ∈ events.map Event.name then raises (ends name) = true else name ∈ s.jobs.jobFailing := by
  induction events generalizing s with
  | nil => simp
  | cons e rest ih =>
    have he := h e List.mem_cons_self s
    have hstep : name ∈ (step u py s e).jobs.jobFailing ↔ _ := mem_jobFailing_step e (by rw [he]; exact hends _)
    rw [List.foldl_cons,ih (fun e he => h e (List.mem_cons_of_mem _ he)),hstep,he,List.map_cons]
    by_cases hrest : name ∈ rest.map Event.name
    · simp [hrest]
    · by_cases hname : name = e.name
      · simp [hname]
      · simp [hrest,hname]

/-- How a job behind `get_systeminfo` ends. -/
def Poll.ends (p : Poll Flt Time Err) (name : String) : Jobs.Outcome :=
  if name = "get_interface" then match p.interface with
    | .raised err => .raised err
    | _ => .returned
  else if name = "get_systemstats" then match p.stats with
    | .raised err => .raised err
    | _ => .returned
  else match p.raised name with
    | none => .returned
    | some err => .raised err

theorem ends_ne_cancelled : p.ends name ≠ .cancelled := by
  unfold Poll.ends
  split
  · split <;> exact Jobs.Outcome.noConfusion
  split
  · split <;> exact Jobs.Outcome.noConfusion
  · split <;> exact Jobs.Outcome.noConfusion

theorem name_job : (p.job name).name = name := by
  unfold Poll.job
  split
  · rename_i heq
    exact heq.symm
  · rfl

theorem outcome_job (hname : name ≠ "get_interface") : (p.job name).outcome u py s = p.ends name := by
  unfold Poll.job Poll.ends
  rw [if_neg hname]
  split
  · unfold Event.outcome Coordinator.getSystemstats
    cases p.stats with
    | raised err => rfl
    | failed err =>
      dsimp only
      split
      · rfl
      · rfl
    | answered stats =>
      dsimp only
      split
      · rfl
      · rfl
  · rfl

theorem outcome_interface : (Event.interface p.interface).outcome u py s = p.ends "get_interface" := by
  unfold Poll.ends Event.outcome
  rw [if_pos rfl]
  cases p.interface with
  | malformed => rfl
  | raised err => rfl
  | answered interfaces =>
    unfold Coordinator.getInterface
    dsimp only
    split
    · rfl
    · rfl

theorem names_jobs : p.jobs.map Event.name =
    "get_interface" :: p.gathered ++ ((if p.poolConnected then ["get_pool"] else []) ++ ["get_app_stats"]) := by
  have hgathered : (p.gathered.map p.job).map Event.name = p.gathered := by
    rw [List.map_map]
    exact (List.map_congr_left (fun name _ => name_job)).trans (List.map_id _)
  have hpool : (if p.poolConnected then [p.job "get_pool"] else []).map Event.name =
      if p.poolConnected then ["get_pool"] else [] := by
    split
    · rw [List.map_singleton,name_job]
    · rfl
  rw [Poll.jobs,List.map_append,List.map_cons,List.map_append,hgathered,hpool,List.map_singleton,name_job]
  rfl

theorem outcome_of_mem_jobs {e : Event Flt Time Err} (he : e ∈ p.jobs) (s : Coordinator Flt Time Err) :
    e.outcome u py s = p.ends e.name := by
  have hjob : ∀ name ∈ "get_pool" :: "get_app_stats" :: gatheredJobs, (p.job name).outcome u py s =
      p.ends (p.job name).name := by
    intro name hname
    rw [name_job,outcome_job]
    rintro rfl
    exact absurd hname (by decide)
  rcases List.mem_cons.mp he with rfl | he
  · exact outcome_interface
  rcases List.mem_append.mp he with he | he
  · obtain ⟨name,hname,rfl⟩ := List.mem_map.mp he
    exact hjob name (List.mem_cons_of_mem _ (List.mem_cons_of_mem _ (p.order.mem_iff.mp hname)))
  rcases List.mem_append.mp he with he | he
  · split at he
    · rw [List.mem_singleton.mp he]
      exact hjob _ List.mem_cons_self
    · cases he
  · rw [List.mem_singleton.mp he]
    exact hjob _ (List.mem_cons_of_mem _ List.mem_cons_self)

/-- Every job that owns a part of the data runs in every poll whose connection holds. -/
theorem mem_names_of_path (hpool : p.poolConnected = true) {owner : String × List String}
    (howner : owner ∈ Jobs.jobDataPaths) (hne : owner.1 ≠ "get_systeminfo") : owner.1 ∈ p.jobs.map Event.name := by
  have hall : ∀ owner ∈ Jobs.jobDataPaths, owner.1 = "get_systeminfo" ∨
      owner.1 ∈ "get_interface" :: "get_pool" :: "get_app_stats" :: gatheredJobs := by decide
  rw [names_jobs,hpool]
  rcases hall owner howner with heq | hmem
  · exact absurd heq hne
  · simp only [List.mem_cons,← p.order.mem_iff] at hmem
    simp only [if_true,List.mem_append,List.mem_cons,List.not_mem_nil,or_false]
    rcases hmem with h | h | h | h
    · exact Or.inl (Or.inl h)
    · exact Or.inr (Or.inl h)
    · exact Or.inr (Or.inr h)
    · exact Or.inl (Or.inr h)

def Poll.raises (u : Decimals) (py : Interpreter) (s : Coordinator Flt Time Err) (p : Poll Flt Time Err) (name : String) :
    Bool :=
  Polling.raises (if name = "get_systeminfo" then (s.getSysteminfo u py p.info).2 else p.ends name)

theorem getSysteminfo_ne_cancelled (run : InfoRun Flt Time) : (s.getSysteminfo u py run).2 ≠ .cancelled := by
  have hfinish : ∀ t : Coordinator Flt Time Err, (t.finishSysteminfo u py run).2 ≠ .cancelled := by
    intro t
    unfold Coordinator.finishSysteminfo
    dsimp only
    split
    · exact Jobs.Outcome.noConfusion
    split
    · exact Jobs.Outcome.noConfusion
    · split
      · exact Jobs.Outcome.noConfusion
      · exact Jobs.Outcome.noConfusion
  unfold Coordinator.getSysteminfo
  split
  · exact Jobs.Outcome.noConfusion
  · exact hfinish _
  · exact hfinish _

theorem Poll.connected_of_atEnd (p : Poll Flt Time Err) (h : p.connectedAtEnd = true) : p.connected = true := by
  by_contra hconnected
  have hgone := (p.offline (by simpa using hconnected)).2
  rw [h] at hgone
  cases hgone

theorem updateData_eq_none_iff : (updateData u py s p).2 = none ↔ p.ensured = true ∧ p.connectedAtEnd = true ∧
    hostnameUsable (step u py s (.systeminfo p.info)).systemInfo = true := by
  unfold updateData runJobs
  cases p.ensured with
  | false => simp
  | true =>
    cases hend : p.connectedAtEnd with
    | false =>
      cases p.connected with
      | false => simp
      | true =>
        by_cases hhost : hostnameUsable (step u py s (.systeminfo p.info)).systemInfo = true
        · simp [hhost]
        · simp [hhost]
    | true =>
      rw [p.connected_of_atEnd hend]
      by_cases hhost : hostnameUsable (step u py s (.systeminfo p.info)).systemInfo = true
      · simp [hhost]
      · simp [hhost]

theorem state_of_updateData (h : (updateData u py s p).2 = none) :
    (updateData u py s p).1 = if p.updateDue then
      step u py (p.jobs.foldl (step u py) (step u py s (.systeminfo p.info))) (.updatecheck p.updatecheck)
    else p.jobs.foldl (step u py) (step u py s (.systeminfo p.info)) := by
  obtain ⟨hensured,hend,hhost⟩ := updateData_eq_none_iff.mp h
  unfold updateData runJobs
  simp [hensured,p.connected_of_atEnd hend,hhost]

theorem getUpdatecheck_ne_cancelled (reply : UpdateReply) : (s.getUpdatecheck reply).2 ≠ .cancelled := by
  cases reply <;> exact Jobs.Outcome.noConfusion

theorem mem_jobFailing_updateData (h : (updateData u py s p).2 = none)
    (hpool : p.poolConnected = true) {owner : String × List String} (howner : owner ∈ Jobs.jobDataPaths) :
    owner.1 ∈ (updateData u py s p).1.jobs.jobFailing ↔ p.raises u py s owner.1 = true := by
  have hjobs : owner.1 ∈ (p.jobs.foldl (step u py) (step u py s (.systeminfo p.info))).jobs.jobFailing ↔
      p.raises u py s owner.1 = true := by
    rw [mem_jobFailing_foldl (fun e he s => outcome_of_mem_jobs he s) (fun _ => ends_ne_cancelled),Poll.raises]
    by_cases hinfo : owner.1 = "get_systeminfo"
    · have hnot : "get_systeminfo" ∉ p.jobs.map Event.name := by
        have hfresh : "get_systeminfo" ∉ p.gathered := fun hmem => absurd (p.order.mem_iff.mp hmem) (by decide)
        rw [names_jobs,hpool]
        simp [hfresh]
      rw [hinfo,if_neg hnot,mem_jobFailing_step (.systeminfo p.info) (getSysteminfo_ne_cancelled p.info)]
      rfl
    · rw [if_pos (mem_names_of_path hpool howner hinfo),if_neg hinfo]
  rw [state_of_updateData h]
  split
  · rw [mem_jobFailing_step (.updatecheck p.updatecheck) (getUpdatecheck_ne_cancelled p.updatecheck)]
    have hne : owner.1 ≠ (Event.updatecheck p.updatecheck : Event Flt Time Err).name := by
      have hall : ∀ owner ∈ Jobs.jobDataPaths, owner.1 ≠ "get_updatecheck" := by decide
      exact hall owner howner
    rw [if_neg hne]
    exact hjobs
  · exact hjobs

theorem systemInfo_getInterface (reply : InterfaceReply) : (s.getInterface reply).1.systemInfo = s.systemInfo := by
  cases reply with
  | malformed => rfl
  | raised err => rfl
  | answered interfaces =>
    unfold Coordinator.getInterface
    dsimp only
    split
    · rfl
    · rfl

theorem systemInfo_job (name : String) : (step u py s (p.job name)).systemInfo = s.systemInfo := by
  unfold Poll.job
  split
  · exact (getSystemstats_keeps p.stats).2.1
  · rfl

theorem systemInfo_jobs : (p.jobs.foldl (step u py) s).systemInfo = s.systemInfo := by
  have hnames : ∀ (names : List String) (s : Coordinator Flt Time Err),
      ((names.map p.job).foldl (step u py) s).systemInfo = s.systemInfo := by
    intro names
    induction names with
    | nil => exact fun _ => rfl
    | cons name rest ih => exact fun s => (ih _).trans (systemInfo_job name)
  have hpool : ∀ s : Coordinator Flt Time Err,
      ((if p.poolConnected then [p.job "get_pool"] else []).foldl (step u py) s).systemInfo = s.systemInfo := by
    intro s
    split
    · have hjob : (step u py s (p.job "get_pool")).systemInfo = s.systemInfo := systemInfo_job _
      exact hjob
    · rfl
  rw [Poll.jobs,List.foldl_append,List.foldl_append,List.foldl_cons]
  exact (systemInfo_job _).trans ((hpool _).trans ((hnames _ _).trans (systemInfo_getInterface p.interface)))

theorem hostname_updatecheck (reply : UpdateReply) :
    (step u py s (.updatecheck reply)).systemInfo.lookup "hostname" = s.systemInfo.lookup "hostname" := by
  cases reply with
  | raised err => rfl
  | answered available state version =>
    exact Mapping.lookup_update.trans Option.none_or

structure Delivered (u : Decimals) (py : Interpreter) (s : Coordinator Flt Time Err) (p : Poll Flt Time Err) : Prop where
  hostname : ∃ hostname, (updateData u py s p).1.systemInfo.lookup "hostname" = some (.str hostname) ∧ hostname ≠ "" ∧
    hostname ≠ "unknown"
  paths : p.poolConnected = true → ∀ dataPath, (updateData u py s p).1.jobs.isDataPathFailing dataPath = true ↔
    Jobs.Marked (updateData u py s p).1.jobs.marks dataPath ∨
      ∃ owner ∈ Jobs.jobDataPaths, dataPath ∈ owner.2 ∧ p.raises u py s owner.1 = true

/-- A poll delivers if the connection is there at its end and a host name is known behind `system.info`, whatever the other
jobs do; and then the data that is failing is what failed in this very poll. -/
theorem updateData_law (s : Coordinator Flt Time Err) (p : Poll Flt Time Err) :
    ((updateData u py s p).2 = none ↔ p.ensured = true ∧ p.connectedAtEnd = true ∧
      hostnameUsable (step u py s (.systeminfo p.info)).systemInfo = true) ∧
    ((updateData u py s p).2 = none → Delivered u py s p) := by
  refine ⟨updateData_eq_none_iff,fun h => ⟨?_,fun hpool dataPath => ?_⟩⟩
  · have hsame : (updateData u py s p).1.systemInfo.lookup "hostname" =
        (step u py s (.systeminfo p.info)).systemInfo.lookup "hostname" := by
      rw [state_of_updateData h]
      split
      · rw [hostname_updatecheck,systemInfo_jobs]
      · rw [systemInfo_jobs]
    have husable := (updateData_eq_none_iff.mp h).2.2
    rw [hsame]
    unfold hostnameUsable at husable
    split at husable
    · rename_i hostname heq
      obtain ⟨hne,hknown⟩ := of_decide_eq_true husable
      cases hlookup : (step u py s (.systeminfo p.info)).systemInfo.lookup "hostname" with
      | none =>
        rw [hlookup] at heq
        cases heq
        exact absurd rfl hknown
      | some value =>
        rw [hlookup] at heq
        exact ⟨hostname,congrArg some heq,hne,hknown⟩
    · cases husable
  · rw [Jobs.isDataPathFailing_iff]
    refine or_congr_right (exists_congr (fun owner => ?_))
    constructor
    · rintro ⟨howner,hpath,hfailing⟩
      exact ⟨howner,hpath,(mem_jobFailing_updateData h hpool howner).mp hfailing⟩
    · rintro ⟨howner,hpath,hraises⟩
      exact ⟨howner,hpath,(mem_jobFailing_updateData h hpool howner).mpr hraises⟩

/-- A poll in which `get_disk` raises, and the one job before it answers with a host name. -/
def diskFails : Poll ℕ ℕ Unit where
  ensured := true
  connected := true
  info := ⟨.answered (fun field => match field with
    | .hostname => some "nas"
    | _ => none),true,.none,true⟩
  interface := .malformed
  stats := .failed ()
  raised name := if name = "get_disk" then some .other else none
  staleEndpoints _ := ∅
  gathered := gatheredJobs
  order := .refl _
  poolConnected := true
  updateDue := false
  updatecheck := .raised .other
  connectedAtEnd := true
  offline h := by cases h

theorem updateData_law_diskFails :
    (updateData asciiDecimals ApiParser.plain (Coordinator.fresh ℕ ℕ Unit) diskFails).2 = none ∧
    (updateData asciiDecimals ApiParser.plain (Coordinator.fresh ℕ ℕ Unit) diskFails).1.jobs.isDataPathFailing "disk" =
      true := by
  obtain ⟨hiff,hlaw⟩ :=
    @updateData_law ℕ ℕ Unit asciiDecimals ApiParser.plain (Coordinator.fresh ℕ ℕ Unit) diskFails
  have hdelivers := hiff.mpr ⟨rfl,rfl,by decide⟩
  refine ⟨hdelivers,((hlaw hdelivers).paths rfl "disk").mpr (Or.inr ⟨("get_disk",["disk"]),by decide,by decide,?_⟩)⟩
  decide

end TruenasCE.Polling
