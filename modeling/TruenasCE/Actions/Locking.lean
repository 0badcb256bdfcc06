import TruenasCE.Actions.Loud

/-! # Sessions that lock or unlock a dataset

The actions on datasets are modelled twice: on the data and the job alone, and as sessions of calls. A session in
which no call raises simulates the run on what its host shows.
-/
namespace TruenasCE.Actions
open ApiParser

/-- The host shows `d` until the refresh of the action, and from then on what the refresh leaves. -/
structure Shows {uid : String} (host : Host) (d : Datasets.Data uid) (r : Datasets.Refresh uid) : Prop where
  before : host.data [] = d.fields
  after : ∀ events, Event.refreshed ∈ events → host.data events = r.data.fields
  returns : ∀ events q isException, host.answer events q ≠ .raised isException

def raisedOf (host : String) : Datasets.Raised → Raised
  | .datasetNotEncrypted dataset action =>
    .serviceValidationError "dataset_not_encrypted" [("dataset",dataset),("action",.str action)]
  | .missingPassphrase dataset => .serviceValidationError "missing_passphrase" [("dataset",dataset)]
  | .datasetActionFailed action dataset reason => .datasetActionFailed action dataset host reason
  | .typeError => .typeError

def Query.ofCall (call : Datasets.Call) : Query := { method := call.method, params := .list call.payload }

def jobRun (host : Host) (call : Datasets.Call) : Datasets.JobRun where
  jobId := (host.answer [.refreshed] (.ofCall call)).data
  polls := (host.polls [.asked (.ofCall call) (host.answer [.refreshed] (.ofCall call)),.refreshed]).1

def Event.mutation : Event → Option Query
  | .asked q _ => if q.mutating then some q else none
  | _ => none

def mutations (events : Events) : List Query := events.reverse.filterMap Event.mutation

theorem mutations_cons (event : Event) (events : Events) :
    mutations (event :: events) = mutations events ++ event.mutation.toList := by
  cases h : event.mutation with
  | none => simp [mutations,h]
  | some q => simp [mutations,h]

section Steps
variable {uid : String} {host : Host} {d : Datasets.Data uid} {s : Session} {q : Query}

theorem ends_bind_ok {α β : Type} {act : Act α} {next : α → Act β} {a : α} {t : Session}
    (h : act.ends s = (.ok a,t)) : (act >>= next).ends s = (next a).ends t := by
  rw [ends_bind,h]

theorem ends_bind_error {α β : Type} {act : Act α} {next : α → Act β} {raised : Raised} {t : Session}
    (h : act.ends s = (.error raised,t)) : (act >>= next).ends s = (.error raised,t) := by
  rw [ends_bind,h]

theorem ends_pure {α : Type} (a : α) (s : Session) : (pure a : Act α).ends s = (.ok a,s) := rfl

theorem ends_field (name : String) (s : Session) :
    (field host name).ends s = (.ok (dictGet (host.data s.events) name),s) := rfl

theorem ends_refresh (s : Session) :
    (refresh host).ends s = (.ok (),⟨host.refreshError s.events,.refreshed :: s.events⟩) := rfl

theorem ends_poll (jobId : Value) (s : Session) : (poll host jobId).ends s =
    (.ok (host.polls s.events).1,⟨(host.polls s.events).2,.polled jobId :: s.events⟩) := rfl

theorem ends_locked (h : host.data s.events = d.fields) : (locked host).ends s = (.ok (Datasets.locked d),s) := by
  change (Except.ok (((host.data s.events).lookup "locked").getD (.bool true)).truthy,s) = _
  rw [h]
  rfl

theorem ends_datasetName (h : host.data s.events = d.fields) :
    (datasetName host).ends s = (.ok (Datasets.datasetName d),s) := by
  change (Except.ok (((host.data s.events).lookup "name").getD Datasets.unknownDataset),s) = _
  rw [h]
  rfl

theorem ends_raiseIfNotEncrypted (h : host.data s.events = d.fields) (action : String) :
    (raiseIfNotEncrypted host action).ends s =
      if Datasets.encrypted d then (.ok (),s)
      else (.error (raisedOf host.name (.datasetNotEncrypted (Datasets.datasetName d) action)),s) := by
  unfold raiseIfNotEncrypted
  rw [ends_bind,ends_field,h]
  change (if !Datasets.encrypted d then _ else _ : Act Unit).ends s = _
  cases Datasets.encrypted d with
  | true => rfl
  | false =>
    change ((datasetName host) >>= _).ends s = _
    rw [ends_bind,ends_datasetName h]
    rfl

theorem ends_raiseDatasetActionFailed (h : host.data s.events = d.fields) (action : String) {α : Type}
    (x : Except Datasets.Reason α) : (raiseDatasetActionFailed host action x).ends s =
      (x.mapError (fun reason => raisedOf host.name (Datasets.actionFailed action d reason)),s) := by
  cases x with
  | ok a => rfl
  | error reason =>
    change ((datasetName host) >>= _).ends s = _
    rw [ends_bind,ends_datasetName h]
    rfl

theorem ends_storedPassphrase (h : host.data s.events = d.fields) : (storedPassphrase host).ends s =
    ((Datasets.storedPassphrase d host.passphrases).mapError (raisedOf host.name),s) := by
  unfold storedPassphrase Datasets.storedPassphrase
  rw [ends_bind,ends_field,h]
  simp only
  split
  · rfl
  · cases host.passphrases with
    | dict passphrases => cases dictGet d.fields "name" <;> rfl
    | _ => rfl

theorem ends_query_returned (h : ∀ isException, host.answer s.events q ≠ .raised isException) : (query host q).ends s =
    (.ok (host.answer s.events q).data,⟨(host.answer s.events q).error,.asked q (host.answer s.events q) :: s.events⟩) := by
  rw [ends_query]
  split
  · exact absurd ‹_› (h _)
  · rfl

end Steps

def EndsLike (host : Host) (act : Act Unit) (s : Session) (run : Datasets.Ran) : Prop :=
  ∃ t, act.ends s = (run.result.mapError (raisedOf host.name),t) ∧ mutations t.events = run.calls.map Query.ofCall

section Sessions
variable {uid : String} {host : Host} {d : Datasets.Data uid} {r : Datasets.Refresh uid} {s : Session}
variable {job : Datasets.JobRun}

theorem ends_runDatasetJob (h : Shows host d r) (call : Datasets.Call) (hmutates : call.method ∉ readMethods)
    (error action : String) : ∃ t, (runDatasetJob host call.method call.payload action).ends ⟨error,[.refreshed]⟩ =
        ((Datasets.runDatasetJob (jobRun host call)).mapError
          (fun reason => raisedOf host.name (Datasets.actionFailed action r.data reason)),t) ∧
      .refreshed ∈ t.events ∧ mutations t.events = [.ofCall call] := by
  have hquery : (Query.ofCall call).mutating = true := mutating_of hmutates
  have hasked : ∀ outcome, mutations [.asked (.ofCall call) outcome,.refreshed] = [.ofCall call] := by
    intro outcome
    rw [mutations_cons,Event.mutation,if_pos hquery]
    rfl
  change ∃ t, (query host (.ofCall call) >>= _).ends _ = _ ∧ _
  rw [ends_bind_ok (ends_query_returned (h.returns _ _))]
  dsimp only
  by_cases hint : Datasets.isInt (host.answer [.refreshed] (.ofCall call)).data = true
  · rw [if_pos hint,ends_bind_ok (ends_poll _ _),ends_raiseDatasetActionFailed (h.after _ (by simp))]
    refine ⟨_,rfl,by simp,?_⟩
    rw [mutations_cons,hasked]
    exact List.append_nil _
  · rw [if_neg hint,ends_bind_ok (ends_pure _ _),ends_raiseDatasetActionFailed (h.after _ (by simp)),
      Datasets.runDatasetJob,Datasets.runDatasetJob,if_neg hint,
      if_neg (show ¬ Datasets.isInt (jobRun host call).jobId = true from hint)]
    exact ⟨_,rfl,by simp,hasked _⟩

/-- A session of `lock` that gets the answers of a job ends like the run with this job. -/
theorem lock_endsLike (h : Shows host d r) (forceUmount : Bool) (error : String)
    (hjob : ∀ call ∈ (Datasets.lock d r job forceUmount).calls, job = jobRun host call) :
    EndsLike host (lock host forceUmount) ⟨error,[]⟩ (Datasets.lock d r job forceUmount) := by
  have hencrypted := ends_raiseIfNotEncrypted (s := ⟨error,[]⟩) h.before "lock"
  unfold lock
  cases hd : Datasets.encrypted d with
  | false =>
    rw [hd] at hencrypted
    simp only [Datasets.lock,hd]
    exact ⟨_,ends_bind_error hencrypted,rfl⟩
  | true =>
    rw [hd] at hencrypted
    have hs : host.data [.refreshed] = r.data.fields := h.after _ (List.mem_singleton_self _)
    unfold EndsLike
    rw [ends_bind_ok hencrypted,ends_bind_ok (ends_refresh _),
      ends_bind_ok (ends_locked (s := ⟨host.refreshError [],[.refreshed]⟩) hs)]
    cases hlocked : Datasets.locked r.data with
    | true =>
      simp only [Datasets.lock,hd,hlocked]
      exact ⟨_,rfl,rfl⟩
    | false =>
      simp only [Datasets.lock,hd,hlocked,Bool.not_true,Bool.false_eq_true,if_false] at hjob ⊢
      rw [ends_bind_ok (ends_field _ _),hs,hjob _ (List.mem_singleton_self _)]
      obtain ⟨t,hends,_,hcalls⟩ := ends_runDatasetJob h
        ⟨"pool.dataset.lock",[dictGet r.data.fields "id",.dict [("force_umount",.bool forceUmount)]]⟩
        (show "pool.dataset.lock" ∉ readMethods by decide) (host.refreshError []) "lock"
      generalize jobRun host _ = job at hends ⊢
      cases hrun : Datasets.runDatasetJob job with
      | error reason =>
        rw [hrun] at hends
        exact ⟨t,ends_bind_error hends,hcalls⟩
      | ok result =>
        rw [hrun] at hends
        rw [ends_bind_ok hends,ends_refresh]
        exact ⟨_,rfl,(mutations_cons _ _).trans ((List.append_nil _).trans hcalls)⟩

/-- `unlock` behind its checks -/
def unlockRefreshed (host : Host) (effective : Value) (recursive force : Bool) : Act Unit := do
  refresh host
  if !(← locked host) then return
  let id ← field host "id"
  let name ← field host "name"
  let result ← runDatasetJob host "pool.dataset.unlock"
    [id,.dict [("recursive",.bool recursive),("datasets",.list [.dict [("name",name),("passphrase",effective),
      ("recursive",.bool recursive),("force",.bool force)]])]] "unlock"
  raiseDatasetActionFailed host "unlock" (Datasets.raiseOnUnlockFailure result)
  refresh host

/-- Without a passphrase `unlock` does not get there. -/
def requirePassphrase (host : Host) (effective : Value) (next : Act Unit) : Act Unit := do
  if !effective.truthy then
    let dataset ← datasetName host
    throw (.serviceValidationError "missing_passphrase" [("dataset",dataset)])
  next

theorem unlock_eq (host : Host) (passphrase : Option String) (recursive force : Bool) :
    unlock host passphrase recursive force = raiseIfNotEncrypted host "unlock" >>= fun _ =>
      match passphrase with
      | some passphrase =>
        requirePassphrase host (.str passphrase) (unlockRefreshed host (.str passphrase) recursive force)
      | none => storedPassphrase host >>= fun effective =>
        requirePassphrase host effective (unlockRefreshed host effective recursive force) := by
  cases passphrase with
  | none => rfl
  | some passphrase => rfl

theorem ends_requirePassphrase (h : host.data s.events = d.fields) (effective : Value) (next : Act Unit) :
    (requirePassphrase host effective next).ends s =
      if effective.truthy then next.ends s
      else (.error (raisedOf host.name (.missingPassphrase (Datasets.datasetName d))),s) := by
  unfold requirePassphrase
  cases effective.truthy with
  | true => rfl
  | false =>
    change ((datasetName host) >>= _).ends s = _
    rw [ends_bind_ok (ends_datasetName h)]
    rfl

theorem unlockRefreshed_endsLike (h : Shows host d r) {stored effective : Value} {passphrase : Option String}
    (hd : Datasets.encrypted d = true) (heffective : Datasets.effectivePassphrase d stored passphrase = .ok effective)
    (htruthy : effective.truthy = true) (recursive force : Bool) (error : String)
    (hjob : ∀ call ∈ (Datasets.unlock d r job stored passphrase recursive force).calls, job = jobRun host call) :
    EndsLike host (unlockRefreshed host effective recursive force) ⟨error,[]⟩
      (Datasets.unlock d r job stored passphrase recursive force) := by
  have hs : host.data [.refreshed] = r.data.fields := h.after _ (List.mem_singleton_self _)
  unfold EndsLike unlockRefreshed
  rw [ends_bind_ok (ends_refresh _),ends_bind_ok (ends_locked (s := ⟨host.refreshError [],[.refreshed]⟩) hs)]
  cases hlocked : Datasets.locked r.data with
  | false =>
    simp only [Datasets.unlock,hd,heffective,htruthy,hlocked]
    exact ⟨_,rfl,rfl⟩
  | true =>
    simp only [Datasets.unlock,hd,heffective,htruthy,hlocked,Bool.not_true,Bool.false_eq_true,if_false] at hjob ⊢
    rw [ends_bind_ok (ends_field _ _),ends_bind_ok (ends_field _ _),hs,hjob _ (List.mem_singleton_self _)]
    obtain ⟨t,hends,hmem,hcalls⟩ := ends_runDatasetJob h ⟨"pool.dataset.unlock",
      [dictGet r.data.fields "id",.dict [("recursive",.bool recursive),("datasets",.list [.dict
        [("name",dictGet r.data.fields "name"),("passphrase",effective),("recursive",.bool recursive),
          ("force",.bool force)]])]]⟩ (show "pool.dataset.unlock" ∉ readMethods by decide) (host.refreshError []) "unlock"
    generalize jobRun host _ = job at hends ⊢
    cases hrun : Datasets.runDatasetJob job with
    | error reason =>
      rw [hrun] at hends
      exact ⟨t,ends_bind_error hends,hcalls⟩
    | ok result =>
      rw [hrun] at hends
      have hfailure := ends_raiseDatasetActionFailed (h.after _ hmem) "unlock" (Datasets.raiseOnUnlockFailure result)
      rw [ends_bind_ok hends,Except.bind]
      cases hraise : Datasets.raiseOnUnlockFailure result with
      | error reason =>
        rw [hraise] at hfailure
        exact ⟨t,ends_bind_error hfailure,hcalls⟩
      | ok =>
        rw [hraise] at hfailure
        rw [ends_bind_ok hfailure,ends_refresh]
        exact ⟨_,rfl,(mutations_cons _ _).trans ((List.append_nil _).trans hcalls)⟩

theorem requirePassphrase_endsLike (h : Shows host d r) {stored effective : Value} {passphrase : Option String}
    (hd : Datasets.encrypted d = true) (heffective : Datasets.effectivePassphrase d stored passphrase = .ok effective)
    (recursive force : Bool) (error : String)
    (hjob : ∀ call ∈ (Datasets.unlock d r job stored passphrase recursive force).calls, job = jobRun host call) :
    EndsLike host (requirePassphrase host effective (unlockRefreshed host effective recursive force)) ⟨error,[]⟩
      (Datasets.unlock d r job stored passphrase recursive force) := by
  unfold EndsLike
  rw [ends_requirePassphrase h.before]
  cases htruthy : effective.truthy with
  | true => exact unlockRefreshed_endsLike h hd heffective htruthy recursive force error hjob
  | false =>
    simp only [Datasets.unlock,hd,heffective,htruthy]
    exact ⟨_,rfl,rfl⟩

/-- The same of `unlock`. -/
theorem unlock_endsLike (h : Shows host d r) (passphrase : Option String) (recursive force : Bool) (error : String)
    (hjob : ∀ call ∈ (Datasets.unlock d r job host.passphrases passphrase recursive force).calls, job = jobRun host call) :
    EndsLike host (unlock host passphrase recursive force) ⟨error,[]⟩
      (Datasets.unlock d r job host.passphrases passphrase recursive force) := by
  have hencrypted := ends_raiseIfNotEncrypted (s := ⟨error,[]⟩) h.before "unlock"
  rw [unlock_eq]
  cases hd : Datasets.encrypted d with
  | false =>
    rw [hd] at hencrypted
    simp only [Datasets.unlock,hd]
    exact ⟨_,ends_bind_error hencrypted,rfl⟩
  | true =>
    rw [hd] at hencrypted
    unfold EndsLike
    rw [ends_bind_ok hencrypted]
    cases passphrase with
    | some passphrase => exact requirePassphrase_endsLike h hd rfl recursive force error hjob
    | none =>
      have hstored := ends_storedPassphrase (s := ⟨error,[]⟩) h.before
      cases heffective : Datasets.storedPassphrase d host.passphrases with
      | ok effective =>
        rw [heffective] at hstored
        have hnone : Datasets.effectivePassphrase d host.passphrases none = .ok effective := heffective
        simp only
        rw [ends_bind_ok hstored]
        exact requirePassphrase_endsLike h hd hnone recursive force error hjob
      | error raised =>
        rw [heffective] at hstored
        simp only [Datasets.unlock,hd,Datasets.effectivePassphrase,heffective]
        exact ⟨_,ends_bind_error hstored,rfl⟩

def ofRequest : Datasets.Request → Action
  | .lock forceUmount => .lock forceUmount
  | .unlock _ passphrase recursive force => .unlock passphrase recursive force

theorem request_endsLike (h : Shows host d r) (request : Datasets.Request)
    (hstored : ∀ stored passphrase recursive force, request = .unlock stored passphrase recursive force →
      stored = host.passphrases) (error : String)
    (hjob : ∀ call ∈ (request.run d r job).calls, job = jobRun host call) :
    EndsLike host ((ofRequest request).act host) ⟨error,[]⟩ (request.run d r job) := by
  cases request with
  | lock forceUmount => exact lock_endsLike h forceUmount error hjob
  | unlock stored passphrase recursive force =>
    cases hstored _ _ _ _ rfl
    exact unlock_endsLike h passphrase recursive force error hjob

end Sessions

end TruenasCE.Actions
