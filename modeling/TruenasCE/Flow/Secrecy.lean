import Mathlib.Logic.Equiv.Basic
import TruenasCE.Flow.Credentials

/-! # A setup flow keeps keys to itself

A flow only asks whether a key is blank. When all keys are exchanged for others, in the legacy entries, in what is entered
and in what the boxes accept, it shows the same forms and errors and opens the same connections.
-/
namespace TruenasCE.Flow.Setup
open Library TruenasCE.ApiParser

variable (σ : Equiv.Perm String)

def Working.rename (config : Working) : Working := { config with apiKey := config.apiKey.map σ }

def Legacy.rename (legacy : Legacy) : Legacy := { legacy with apiKey := legacy.apiKey.map σ }

def Submission.rename (input : Submission) : Submission := { input with apiKey := σ input.apiKey }

def World.rename (w : World) : World :=
  { w with
    legacy := w.legacy.map (Legacy.rename σ)
    connect := fun host apiKey verifySsl => w.connect host (σ.symm apiKey) verifySsl }

def Request.rename : Request → Request
  | .probe host => .probe host
  | .test host apiKey verifySsl => .test host (σ apiKey) verifySsl

def Result.rename : Result → Result
  | .created title data options uniqueId => .created title (data.rename σ) options uniqueId
  | result => result

def Action.rename : Action → Action
  | .submit input => .submit (input.rename σ)
  | action => action

def Turn.rename (turn : Turn) : Turn where
  world := turn.world.rename σ
  action := turn.action.rename σ
  imported := turn.imported.map (Legacy.rename σ)
  requests := turn.requests.map (Request.rename σ)
  result := turn.result.rename σ

def SetupFlow.rename (S : SetupFlow) : SetupFlow :=
  { S with config := S.config.rename σ, turns := S.turns.map (Turn.rename σ) }

def Result.shown : Result → Result
  | .created title data options uniqueId => .created title { data with apiKey := none } options uniqueId
  | result => result

variable {σ} {sanitizeHost : String → String} (hσ : σ "" = "")
include hσ

theorem rename_eq_iff (key : String) : σ key = "" ↔ key = "" := by
  conv_lhs => rw [← hσ]
  exact σ.injective.eq_iff

theorem present_map (value : Option String) : present (value.map σ) = present value := by
  cases value with
  | none => rfl
  | some key => simp [present,rename_eq_iff hσ]

omit hσ in
theorem findLegacyConfig_eq (legacyEntries : List Legacy) (config : Working) :
    findLegacyConfig sanitizeHost legacyEntries config = (if present config.host then legacyEntries.find? (fun entry =>
      present entry.host ∧ entry.host.map sanitizeHost = config.host.map sanitizeHost) else none).or
        (if legacyEntries.length = 1 then legacyEntries.head? else none) := by
  unfold findLegacyConfig
  cases (if present config.host then legacyEntries.find? (fun entry =>
      present entry.host ∧ entry.host.map sanitizeHost = config.host.map sanitizeHost) else none) <;> rfl

omit hσ in
theorem findLegacyConfig_rename (legacyEntries : List Legacy) (config : Working) :
    findLegacyConfig sanitizeHost (legacyEntries.map (Legacy.rename σ)) (config.rename σ) =
      (findLegacyConfig sanitizeHost legacyEntries config).map (Legacy.rename σ) := by
  have hfind : (legacyEntries.map (Legacy.rename σ)).find? (fun entry =>
      present entry.host ∧ entry.host.map sanitizeHost = config.host.map sanitizeHost) =
      (legacyEntries.find? (fun entry =>
        present entry.host ∧ entry.host.map sanitizeHost = config.host.map sanitizeHost)).map (Legacy.rename σ) := by
    rw [List.find?_map]
    rfl
  have hhost : (config.rename σ).host = config.host := rfl
  rw [findLegacyConfig_eq,findLegacyConfig_eq,hhost,hfind,List.length_map,List.head?_map,Option.map_or,apply_ite
    (Option.map (Legacy.rename σ)),apply_ite (Option.map (Legacy.rename σ)),Option.map_none]

theorem takeOver_rename (config : Working) (legacy : Legacy) :
    (config.rename σ).takeOver (legacy.rename σ) = (config.takeOver legacy).rename σ := by
  have hkey : (legacy.apiKey.map σ).getD "" = σ (legacy.apiKey.getD "") := by
    cases legacy.apiKey with
    | none => exact hσ.symm
    | some key => rfl
  simp only [Working.takeOver,Working.rename,Legacy.rename,hkey,Option.map_some]

theorem update_rename (config : Working) (input : Submission) :
    (config.rename σ).update sanitizeHost (input.rename σ) = (config.update sanitizeHost input).rename σ := by
  have hpop : ∀ keep, popBlankApiKey (σ input.apiKey) keep = (popBlankApiKey input.apiKey keep).map σ := by
    intro keep
    unfold popBlankApiKey
    simp only [rename_eq_iff hσ]
    split
    · rfl
    · rfl
  simp only [Working.update,Working.rename,Submission.rename,present_map hσ,hpop,Option.map_or]

omit hσ in
theorem validateConnection_rename (w : World) (config : Working) : validateConnection (w.rename σ) (config.rename σ) =
    (validateConnection w config).map (fun out => (out.1.rename σ,out.2.1,out.2.2.map (Request.rename σ))) := by
  obtain ⟨name,host,apiKey,verifySsl,_,_,_,_⟩ := config
  cases host with
  | none => rfl
  | some host =>
    cases apiKey with
    | none => rfl
    | some apiKey =>
      cases verifySsl with
      | none => rfl
      | some verifySsl =>
        simp only [validateConnection,Working.rename,World.rename,Option.map_some,Equiv.symm_apply_apply]
        cases w.connect host apiKey verifySsl <;> rfl

omit hσ in
theorem createEntry_rename (S : SetupFlow) : createEntry (S.rename σ) = (createEntry S).rename σ := by
  obtain ⟨⟨name,_,_,_,_,_,_,_⟩,_,_,_,_⟩ := S
  cases name <;> rfl

omit hσ in
theorem concludeUserInput_rename (w : World) (S : SetupFlow) (errors : Errors) :
    concludeUserInput (w.rename σ) (S.rename σ) errors =
      ((concludeUserInput w S errors).1.rename σ,(concludeUserInput w S errors).2.rename σ) := by
  unfold concludeUserInput
  have hid : (S.rename σ).config.systemId = S.config.systemId := rfl
  by_cases herrors : errors ≠ []
  · rw [if_pos herrors,if_pos herrors]
    rfl
  rw [if_neg herrors,if_neg herrors,hid]
  cases S.config.systemId with
  | none => exact Prod.ext rfl (createEntry_rename S)
  | some id =>
    dsimp only
    by_cases hempty : id = ""
    · rw [if_pos hempty,if_pos hempty]
      exact Prod.ext rfl (createEntry_rename S)
    rw [if_neg hempty,if_neg hempty]
    have hprogress : (w.rename σ).inProgress id = w.inProgress id := rfl
    have hconfigured : (w.rename σ).configured id = w.configured id := rfl
    rw [hprogress,hconfigured]
    split
    · rfl
    split
    · rfl
    · exact Prod.ext rfl (createEntry_rename { S with uniqueId := some id })

theorem applyUserInput_rename (w : World) (S : SetupFlow) (input : Submission) :
    applyUserInput sanitizeHost (w.rename σ) (S.rename σ) (input.rename σ) =
      ((applyUserInput sanitizeHost w S input).1.rename σ,
        (applyUserInput sanitizeHost w S input).2.1.map (Request.rename σ),
        (applyUserInput sanitizeHost w S input).2.2.rename σ) := by
  have hconfig : (S.rename σ).config.update sanitizeHost (input.rename σ) =
      (S.config.update sanitizeHost input).rename σ := update_rename hσ S.config input
  have hhost : ((S.config.update sanitizeHost input).rename σ).host = some (sanitizeHost input.host) := rfl
  have hhost' : (S.config.update sanitizeHost input).host = some (sanitizeHost input.host) := rfl
  have hentries : (w.rename σ).entriesMatch = w.entriesMatch := rfl
  have hpresent : present ((S.config.update sanitizeHost input).rename σ).apiKey =
      present (S.config.update sanitizeHost input).apiKey := present_map hσ _
  have hconclude : ∀ config errors, concludeUserInput (w.rename σ) { S.rename σ with config := config.rename σ } errors =
      ((concludeUserInput w { S with config := config } errors).1.rename σ,
        (concludeUserInput w { S with config := config } errors).2.rename σ) :=
    fun config errors => concludeUserInput_rename w { S with config := config } errors
  unfold applyUserInput
  rw [hconfig]
  dsimp only
  rw [hhost,hhost',hentries,hpresent]
  dsimp only
  by_cases hentry : w.entriesMatch (sanitizeHost input.host) = true
  · rw [if_pos hentry,if_pos hentry]
    rfl
  rw [if_neg hentry,if_neg hentry]
  split
  · rw [hconclude]
    rfl
  rw [validateConnection_rename]
  cases validateConnection w (S.config.update sanitizeHost input) with
  | none => rfl
  | some out =>
    obtain ⟨config,errors,requests⟩ := out
    dsimp only [Option.map_some]
    rw [hconclude]

omit hσ in
theorem showUserForm_rename (w : World) (S : SetupFlow) : showUserForm (w.rename σ) (S.rename σ) =
    ((showUserForm w S).1.rename σ,(showUserForm w S).2.rename σ) := by
  have hhost : present (S.rename σ).config.host = present S.config.host := rfl
  unfold showUserForm
  rw [hhost]
  split
  · rfl
  · rfl

omit hσ in
theorem openUserStep_rename (w : World) (S : SetupFlow) : openUserStep sanitizeHost (w.rename σ) (S.rename σ) =
    ((openUserStep sanitizeHost w S).1.rename σ,(openUserStep sanitizeHost w S).2.rename σ) := by
  have hchecked : (S.rename σ).migrationChecked = S.migrationChecked := rfl
  have hfind : (findLegacyConfig sanitizeHost (w.rename σ).legacy (S.rename σ).config).isSome =
      (findLegacyConfig sanitizeHost w.legacy S.config).isSome := by
    have hmap := @findLegacyConfig_rename σ sanitizeHost w.legacy S.config
    exact (congrArg Option.isSome hmap).trans Option.isSome_map
  unfold openUserStep
  rw [hchecked,hfind]
  split
  · split
    · rfl
    · exact showUserForm_rename w { S with migrationChecked := true }
  · exact showUserForm_rename w S

omit hσ in
theorem probed_rename (w : World) (candidates : List String) :
    (probed w candidates).map (Request.rename σ) = probed w candidates := by
  induction candidates with
  | nil => rfl
  | cons candidate rest ih =>
    rw [probed,List.map_cons]
    split
    · rfl
    · rw [ih]
      rfl

omit hσ in
theorem stepZeroconf_rename (w : World) (S : SetupFlow) (info : ServiceInfo) :
    stepZeroconf sanitizeHost (w.rename σ) (S.rename σ) info =
      ((stepZeroconf sanitizeHost w S info).1.rename σ,
        (stepZeroconf sanitizeHost w S info).2.1.map (Request.rename σ),
        (stepZeroconf sanitizeHost w S info).2.2.rename σ) := by
  have hretry : (w.rename σ).retrying = w.retrying := rfl
  have hentries : (w.rename σ).entriesMatch = w.entriesMatch := rfl
  have hprogress : (w.rename σ).inProgress = w.inProgress := rfl
  have hconfigured : (w.rename σ).configured = w.configured := rfl
  have hanswers : (w.rename σ).answers = w.answers := rfl
  have hknown : (w.rename σ).isConfigured = w.isConfigured := rfl
  have hprobed : ∀ candidates, probed (w.rename σ) candidates = probed w candidates := by
    intro candidates
    induction candidates with
    | nil => rfl
    | cons candidate rest ih =>
      rw [probed,probed,ih]
      rfl
  have hretried : (if w.retrying (sanitizeHost info.host) then [Request.probe (sanitizeHost info.host)] else []).map
      (Request.rename σ) = if w.retrying (sanitizeHost info.host) then [.probe (sanitizeHost info.host)] else [] := by
    split
    · rfl
    · rfl
  unfold stepZeroconf
  dsimp only
  rw [hretry,hentries,hprogress,hconfigured,hanswers,hknown,hprobed]
  by_cases hentry : w.entriesMatch (sanitizeHost info.host) = true
  · rw [if_pos hentry,if_pos hentry]
    dsimp only
    rw [hretried]
    rfl
  rw [if_neg hentry,if_neg hentry]
  by_cases hother : w.inProgress (sanitizeHost info.host) = true
  · rw [if_pos hother,if_pos hother]
    dsimp only
    rw [hretried]
    rfl
  rw [if_neg hother,if_neg hother]
  by_cases hid : w.configured (sanitizeHost info.host) = true
  · rw [if_pos hid,if_pos hid]
    dsimp only
    rw [hretried]
    rfl
  rw [if_neg hid,if_neg hid]
  cases (probeCandidates (sanitizeHost info.host) info.port).find? w.answers with
  | none =>
    dsimp only
    rw [List.map_append,hretried,probed_rename]
    rfl
  | some found =>
    dsimp only
    split
    · dsimp only
      rw [List.map_append,hretried,probed_rename]
      rfl
    · dsimp only
      rw [List.map_append,hretried,probed_rename]
      rfl

theorem perform_rename (w : World) (S : SetupFlow) (a : Action) :
    perform sanitizeHost (w.rename σ) (S.rename σ) (a.rename σ) =
      ((perform sanitizeHost w S a).1.rename σ,(perform sanitizeHost w S a).2.1.map (Legacy.rename σ),
        (perform sanitizeHost w S a).2.2.1.map (Request.rename σ),(perform sanitizeHost w S a).2.2.2.rename σ) := by
  have hopen : ∀ T : SetupFlow, openUserStep sanitizeHost (w.rename σ) (T.rename σ) =
      ((openUserStep sanitizeHost w T).1.rename σ,(openUserStep sanitizeHost w T).2.rename σ) :=
    fun T => openUserStep_rename w T
  cases a with
  | submit input =>
    have happly := @applyUserInput_rename σ sanitizeHost hσ w S input
    simp only [perform,Action.rename,happly,Option.map_none]
  | zeroconf info =>
    have hzeroconf := @stepZeroconf_rename σ sanitizeHost w S info
    simp only [perform,Action.rename,hzeroconf,Option.map_none]
  | user | zeroconfConfirm => simp only [perform,Action.rename,hopen,Option.map_none,List.map_nil]
  | migrateManual =>
    have hmanual := hopen { S with config := { S.config with migrationDone := true } }
    exact congrArg (fun out => (out.1,none,[],out.2)) hmanual
  | migrateImport =>
    have hfind : findLegacyConfig sanitizeHost (w.rename σ).legacy (S.rename σ).config =
        (findLegacyConfig sanitizeHost w.legacy S.config).map (Legacy.rename σ) := findLegacyConfig_rename _ _
    simp only [perform,Action.rename,hfind]
    cases findLegacyConfig sanitizeHost w.legacy S.config with
    | none => simp only [Option.map_none,hopen,List.map_nil]
    | some legacy =>
      have himport := hopen { S with config := S.config.takeOver legacy, legacyOptions := legacy.options }
      have htaken : (S.rename σ).config.takeOver (legacy.rename σ) = (S.config.takeOver legacy).rename σ :=
        takeOver_rename hσ S.config legacy
      dsimp only [Option.map_some]
      rw [htaken]
      exact congrArg (fun out => (out.1,some (legacy.rename σ),[],out.2)) himport

omit hσ in
theorem allowed_rename (S : SetupFlow) (a : Action) : allowed (S.rename σ) (a.rename σ) = allowed S a := by
  obtain ⟨_,_,_,_,turns⟩ := S
  cases turns with
  | nil => cases a <;> rfl
  | cons turn earlier =>
    obtain ⟨_,_,_,_,result⟩ := turn
    cases a <;> cases result <;> rfl

theorem step_rename (S : SetupFlow) (a : World × Action) :
    step sanitizeHost (S.rename σ) (a.1.rename σ,a.2.rename σ) = (step sanitizeHost S a).map (SetupFlow.rename σ) := by
  obtain ⟨w,a⟩ := a
  have hperform := @perform_rename σ sanitizeHost hσ w S a
  unfold step
  rw [allowed_rename]
  split
  · dsimp only
    rw [hperform]
    rfl
  · rfl

theorem run_rename (S : SetupFlow) (actions : List (World × Action)) :
    (system sanitizeHost).run (fun _ _ => True) (S.rename σ) (actions.map (fun a => (a.1.rename σ,a.2.rename σ))) =
      ((system sanitizeHost).run (fun _ _ => True) S actions).map (SetupFlow.rename σ) := by
  induction actions generalizing S with
  | nil => rfl
  | cons a rest ih =>
    have hstep := @step_rename σ sanitizeHost hσ S a
    simp only [List.map_cons,System.run,if_true]
    change (step sanitizeHost (S.rename σ) (a.1.rename σ,a.2.rename σ)).bind _ = ((step sanitizeHost S a).bind _).map _
    rw [hstep]
    cases step sanitizeHost S a with
    | none => rfl
    | some T => exact ih T

omit hσ in
theorem shown_rename (turn : Turn) : (turn.rename σ).result.shown = turn.result.shown := by
  obtain ⟨_,_,_,_,result⟩ := turn
  cases result <;> rfl

/-- With other keys a flow goes through the same steps, shows the same forms, errors and entries, and sends each key where
it sent the one from before. -/
theorem shown_of_renamed {actions : List (World × Action)} {S : SetupFlow}
    (hrun : (system sanitizeHost).run (fun _ _ => True) {} actions = some S) :
    (system sanitizeHost).run (fun _ _ => True) {} (actions.map (fun a => (a.1.rename σ,a.2.rename σ))) =
        some (S.rename σ) ∧
      (S.rename σ).turns.map (fun turn => turn.result.shown) = S.turns.map (fun turn => turn.result.shown) ∧
      (S.rename σ).turns.map Turn.requests = S.turns.map (fun turn => turn.requests.map (Request.rename σ)) := by
  refine ⟨?_,?_,?_⟩
  · have hrename := @run_rename σ sanitizeHost hσ {} actions
    rw [hrun] at hrename
    exact hrename
  · change (S.turns.map (Turn.rename σ)).map _ = _
    rw [List.map_map]
    exact List.map_congr_left (fun turn _ => shown_rename turn)
  · change (S.turns.map (Turn.rename σ)).map _ = _
    rw [List.map_map]
    rfl

omit hσ in
/-- The box that is taken over has another key. -/
theorem shown_of_otherKey : ∃ actions T, (system id).run (fun _ _ => True) {} actions = some T ∧
    ∃ requests ∈ T.turns.map Turn.requests, requests = [.test "nas.local" "2-secret" false] := by
  obtain ⟨S,turn,earlier,hrun,hturns,-,hrequests,-⟩ := run_takenOver
  have hblank : Equiv.swap "1-secret" "2-secret" "" = "" := Equiv.swap_apply_of_ne_of_ne (by decide) (by decide)
  obtain ⟨hother,-,hsent⟩ := shown_of_renamed hblank hrun
  refine ⟨_,_,hother,_,?_,rfl⟩
  rw [hsent,hturns,List.map_cons,hrequests]
  have hkey : Equiv.swap "1-secret" "2-secret" "1-secret" = "2-secret" := Equiv.swap_apply_left _ _
  simp [Request.rename,hkey]

end TruenasCE.Flow.Setup
