import TruenasCE.Flow.Setup
import TruenasCE.Library.Past

/-! # Where the keys of a setup flow go

Each step by what it does, and from that what holds of all turns of a flow: which keys are sent to which hosts, and what
an entry that is created consists of.
-/
namespace TruenasCE.Flow.Setup
open Library TruenasCE.ApiParser

variable {sanitizeHost : String → String}

/-- The key that is in force: the last one that has been entered, unless a legacy entry with its key has been taken over
since. -/
def keyAfter : List Turn → Option String
  | [] => none
  | turn :: earlier =>
    match turn.action,turn.imported with
    | .submit input,_ => if input.apiKey = "" then keyAfter earlier else some input.apiKey
    | _,some legacy => legacy.apiKey.filter (fun key => key ≠ "")
    | _,none => keyAfter earlier

/-- The options of the legacy entry that has been taken over. -/
def optionsAfter (turns : List Turn) : Fields := ((turns.findSome? Turn.imported).map Legacy.options).getD []

def discoveredHost (sanitizeHost : String → String) (turns : List Turn) : Option String :=
  turns.findSome? (fun turn => match turn.action with
    | .zeroconf info => some (sanitizeHost info.host)
    | _ => none)

def fromScratch (turns : List Turn) : Bool :=
  turns.any (fun turn => match turn.action with
    | .migrateManual => true
    | _ => false)

theorem present_eq_true {value : Option String} (h : present value = true) : ∃ s, value = some s ∧ s ≠ "" := by
  obtain ⟨s,hs,hne⟩ := (Option.any_eq_true _ _).mp h
  exact ⟨s,hs,of_decide_eq_true hne⟩

theorem filter_of_not_present {value : Option String} (h : present value = false) :
    value.filter (fun key => key ≠ "") = none := by
  rw [Option.filter_eq_none_iff]
  intro s hs hne
  have htrue : present value = true := (Option.any_eq_true _ _).mpr ⟨s,hs,hne⟩
  rw [h] at htrue
  cases htrue

inductive Submitted (sanitizeHost : String → String) (w : World) (S : SetupFlow) (input : Submission) :
    SetupFlow → List Request → Result → Prop
  | hasEntry : Submitted sanitizeHost w S input { S with config := S.config.update sanitizeHost input } []
      (.abort "already_configured" none)
  | rejected (prefill : Prefill) (errors : Errors) : Submitted sanitizeHost w S input
      { S with config := S.config.update sanitizeHost input } [] (.userForm prefill errors)
  | failed {apiKey : String} (prefill : Prefill) (errors : Errors)
      (hkey : (S.config.update sanitizeHost input).apiKey = some apiKey) (hne : apiKey ≠ "") :
      Submitted sanitizeHost w S input { S with config := S.config.update sanitizeHost input }
        [.test (sanitizeHost input.host) apiKey input.verifySsl] (.userForm prefill errors)
  | boxKnown {apiKey : String} (T : SetupFlow) (reason : String) (host : Option String)
      (hkey : (S.config.update sanitizeHost input).apiKey = some apiKey) (hne : apiKey ≠ "")
      (hconfig : T.config.apiKey = some apiKey ∧ T.config.migrationDone = S.config.migrationDone ∧
        T.legacyOptions = S.legacyOptions) :
      Submitted sanitizeHost w S input T [.test (sanitizeHost input.host) apiKey input.verifySsl] (.abort reason host)
  | created {apiKey : String} {answer : Option String} {T : SetupFlow}
      (hkey : (S.config.update sanitizeHost input).apiKey = some apiKey) (hne : apiKey ≠ "")
      (hconnect : w.connect (sanitizeHost input.host) apiKey input.verifySsl = .connected answer)
      (hnew : w.entriesMatch (sanitizeHost input.host) = false)
      (hid : ∀ id ∈ getSystemId answer, w.inProgress id = false ∧ w.configured id = false)
      (hT : T = { S with
        config := { S.config.update sanitizeHost input with systemId := getSystemId answer }
        uniqueId := (getSystemId answer).or S.uniqueId }) :
      Submitted sanitizeHost w S input T [.test (sanitizeHost input.host) apiKey input.verifySsl]
        (.created input.name { T.config with dataUnit := none }
          (Mapping.set S.legacyOptions "data_unit" (.str input.dataUnit)) T.uniqueId)

theorem createEntry_of_name {S : SetupFlow} {name : String} (hname : S.config.name = some name) :
    createEntry S = .created name { S.config with dataUnit := none }
      (Mapping.set S.legacyOptions "data_unit" (S.config.dataUnit.getD (.str "GiB"))) S.uniqueId := by
  simp only [createEntry,hname]

theorem concludeUserInput_nil {w : World} {S : SetupFlow} {answer : Option String}
    (hid : S.config.systemId = getSystemId answer) :
    (∃ T reason host, concludeUserInput w S [] = (T,.abort reason host) ∧ T.config = S.config ∧
      T.legacyOptions = S.legacyOptions) ∨
    ((∀ id ∈ getSystemId answer, w.inProgress id = false ∧ w.configured id = false) ∧
      concludeUserInput w S [] = ({ S with uniqueId := (getSystemId answer).or S.uniqueId },
        createEntry { S with uniqueId := (getSystemId answer).or S.uniqueId })) := by
  unfold concludeUserInput
  rw [if_neg (not_not.mpr rfl),hid]
  cases hanswer : getSystemId answer with
  | none => exact Or.inr ⟨fun _ hmem => (by cases hmem),rfl⟩
  | some id =>
    have hne : id ≠ "" := of_decide_eq_true (Option.filter_eq_some_iff.mp hanswer).2
    simp only [if_neg hne]
    by_cases hprogress : w.inProgress id = true
    · rw [if_pos hprogress]
      exact Or.inl ⟨S,_,_,rfl,rfl,rfl⟩
    rw [if_neg hprogress]
    by_cases hconfigured : w.configured id = true
    · rw [if_pos hconfigured]
      exact Or.inl ⟨_,_,_,rfl,rfl,rfl⟩
    rw [if_neg hconfigured]
    refine Or.inr ⟨fun id' hmem => ?_,rfl⟩
    cases hmem
    exact ⟨Bool.eq_false_iff.mpr hprogress,Bool.eq_false_iff.mpr hconfigured⟩

theorem validateConnection_eq {w : World} {config : Working} {host apiKey : String} {verifySsl : Bool}
    (hhost : config.host = some host) (hkey : config.apiKey = some apiKey) (hssl : config.verifySsl = some verifySsl) :
    validateConnection w config = match w.connect host apiKey verifySsl with
      | .invalidHost => some (config,[("host","invalid_hostname")],[])
      | .failed errorcode => some (config,[("host",mapErrorToHa errorcode)],[.test host apiKey verifySsl])
      | .connected answer =>
        some ({ config with systemId := (getSystemId answer).or config.systemId },[],[.test host apiKey verifySsl]) := by
  unfold validateConnection
  cases hconnect : w.connect host apiKey verifySsl <;> simp only [hhost,hkey,hssl,hconnect]

theorem submitted_applyUserInput {w : World} {S : SetupFlow} (hid : S.config.systemId = none) (input : Submission) :
    Submitted sanitizeHost w S input (applyUserInput sanitizeHost w S input).1
      (applyUserInput sanitizeHost w S input).2.1 (applyUserInput sanitizeHost w S input).2.2 := by
  have hhost : (S.config.update sanitizeHost input).host = some (sanitizeHost input.host) := rfl
  have hssl : (S.config.update sanitizeHost input).verifySsl = some input.verifySsl := rfl
  have hsystem : (S.config.update sanitizeHost input).systemId = none := hid
  unfold applyUserInput
  simp only [hhost]
  by_cases hentry : w.entriesMatch (sanitizeHost input.host) = true
  · rw [if_pos hentry]
    exact .hasEntry
  rw [if_neg hentry]
  by_cases hpresent : present (S.config.update sanitizeHost input).apiKey = false
  · rw [if_pos hpresent]
    exact .rejected _ _
  rw [if_neg hpresent]
  obtain ⟨apiKey,hkey,hne⟩ := present_eq_true (Bool.eq_true_of_not_eq_false hpresent)
  rw [validateConnection_eq hhost hkey hssl]
  cases hconnect : w.connect (sanitizeHost input.host) apiKey input.verifySsl with
  | invalidHost => exact .rejected _ _
  | failed errorcode => exact .failed _ _ hkey hne
  | connected answer =>
    dsimp only
    rw [hsystem,Option.or_none]
    rcases @concludeUserInput_nil w { S with
        config := { S.config.update sanitizeHost input with systemId := getSystemId answer } } answer rfl with
      ⟨T,reason,host,heq,hconfig,hoptions⟩ | ⟨hfree,heq⟩
    · rw [heq]
      exact .boxKnown T reason host hkey hne ⟨by rw [hconfig]; exact hkey,by rw [hconfig]; rfl,hoptions⟩
    · rw [heq,createEntry_of_name rfl]
      exact .created hkey hne hconnect (Bool.eq_false_iff.mpr hentry) hfree rfl

theorem openUserStep_spec (w : World) (S : SetupFlow) : ∃ host checked,
    (openUserStep sanitizeHost w S).1 = { S with config := { S.config with host := host }, migrationChecked := checked } ∧
      ((openUserStep sanitizeHost w S).2 = .menu ∨ ∃ prefill, (openUserStep sanitizeHost w S).2 = .userForm prefill []) := by
  have hform : ∀ S : SetupFlow, ∃ host, (showUserForm w S).1 = { S with config := { S.config with host := host } } ∧
      ∃ prefill, (showUserForm w S).2 = .userForm prefill [] := by
    intro S
    unfold showUserForm
    split
    · exact ⟨S.config.host,rfl,_,rfl⟩
    · exact ⟨some w.guess,rfl,_,rfl⟩
  unfold openUserStep
  split
  · split
    · exact ⟨S.config.host,true,rfl,Or.inl rfl⟩
    · obtain ⟨host,hT,hresult⟩ := hform { S with migrationChecked := true }
      exact ⟨host,true,hT,Or.inr hresult⟩
  · obtain ⟨host,hT,hresult⟩ := hform S
    exact ⟨host,S.migrationChecked,hT,Or.inr hresult⟩

theorem mem_probeCandidates_self (host : String) (port : Option ℕ) : host ∈ probeCandidates host port := by
  unfold probeCandidates
  split
  · exact List.mem_singleton_self host
  · split
    · exact List.mem_singleton_self host
    · exact List.mem_cons_self

theorem mem_probed {w : World} {candidates : List String} {r : Request} (h : r ∈ probed w candidates) :
    ∃ host ∈ candidates, r = .probe host := by
  induction candidates with
  | nil => cases h
  | cons candidate rest ih =>
    rcases List.mem_cons.mp h with rfl | h
    · exact ⟨candidate,List.mem_cons_self,rfl⟩
    · split at h
      · cases h
      · obtain ⟨host,hmem,rfl⟩ := ih h
        exact ⟨host,List.mem_cons_of_mem candidate hmem,rfl⟩

/-- A discovery opens connections with the key "-" only, and is confirmed under the id of its host. -/
inductive Discovered (sanitizeHost : String → String) (S : SetupFlow) (info : ServiceInfo) :
    SetupFlow → List Request → Result → Prop
  | aborted {requests : List Request} (uniqueId : Option String) (reason : String)
      (hprobes : ∀ r ∈ requests, ∃ host ∈ probeCandidates (sanitizeHost info.host) info.port, r = .probe host) :
      Discovered sanitizeHost S info { S with uniqueId := uniqueId } requests (.abort reason none)
  | confirm {requests : List Request} (found : String)
      (hprobes : ∀ r ∈ requests, ∃ host ∈ probeCandidates (sanitizeHost info.host) info.port, r = .probe host) :
      Discovered sanitizeHost S info
        { S with uniqueId := some (sanitizeHost info.host), config := { S.config with host := some found } } requests
        (.confirmForm found)

theorem discovered_stepZeroconf (w : World) (S : SetupFlow) (info : ServiceInfo) : Discovered sanitizeHost S info
    (stepZeroconf sanitizeHost w S info).1 (stepZeroconf sanitizeHost w S info).2.1
    (stepZeroconf sanitizeHost w S info).2.2 := by
  have hretried : ∀ r ∈ (if w.retrying (sanitizeHost info.host) then [Request.probe (sanitizeHost info.host)] else []),
      ∃ host ∈ probeCandidates (sanitizeHost info.host) info.port, r = .probe host := by
    intro r hr
    split at hr
    · exact ⟨_,mem_probeCandidates_self _ _,List.mem_singleton.mp hr⟩
    · cases hr
  have hall : ∀ r ∈ (if w.retrying (sanitizeHost info.host) then [Request.probe (sanitizeHost info.host)] else []) ++
      probed w (probeCandidates (sanitizeHost info.host) info.port),
      ∃ host ∈ probeCandidates (sanitizeHost info.host) info.port, r = .probe host := by
    intro r hr
    rcases List.mem_append.mp hr with hr | hr
    · exact hretried r hr
    · exact mem_probed hr
  unfold stepZeroconf
  dsimp only
  split
  · exact .aborted S.uniqueId _ hretried
  split
  · exact .aborted S.uniqueId _ hretried
  split
  · exact .aborted _ _ hretried
  split
  · exact .aborted _ _ hall
  split
  · exact .aborted _ _ hall
  · exact .confirm _ hall

def SetupFlow.waits (S : SetupFlow) : Bool :=
  match S.turns.head?.map Turn.result with
  | none | some (.userForm _ _) | some (.confirmForm _) | some .menu => true
  | _ => false

/-- An entry is what the last form has entered, over a connection that has just been tested with it. -/
def Made (sanitizeHost : String → String) (turn : Turn) (earlier : List Turn) (title : String) (data : Working)
    (options : Fields) (uniqueId : Option String) : Prop :=
  ∃ input apiKey answer, turn.action = .submit input ∧ keyAfter (turn :: earlier) = some apiKey ∧
    turn.requests = [.test (sanitizeHost input.host) apiKey input.verifySsl] ∧
    turn.world.connect (sanitizeHost input.host) apiKey input.verifySsl = .connected answer ∧
    title = input.name ∧
    data = {
      name := some input.name
      host := some (sanitizeHost input.host)
      apiKey := some apiKey
      verifySsl := some input.verifySsl
      cronjobSkipDisabled := some input.cronjobSkipDisabled
      dataUnit := none
      systemId := getSystemId answer
      migrationDone := fromScratch earlier } ∧
    options = Mapping.set (optionsAfter earlier) "data_unit" (.str input.dataUnit) ∧
    uniqueId = (getSystemId answer).or (discoveredHost sanitizeHost earlier) ∧
    turn.world.entriesMatch (sanitizeHost input.host) = false ∧
    ∀ id ∈ getSystemId answer, turn.world.inProgress id = false ∧ turn.world.configured id = false

structure Sound (sanitizeHost : String → String) (turn : Turn) (earlier : List Turn) : Prop where
  probes : ∀ host, .probe host ∈ turn.requests →
    ∃ info, turn.action = .zeroconf info ∧ host ∈ probeCandidates (sanitizeHost info.host) info.port
  tests : ∀ host apiKey verifySsl, .test host apiKey verifySsl ∈ turn.requests →
    ∃ input, turn.action = .submit input ∧ host = sanitizeHost input.host ∧ verifySsl = input.verifySsl ∧
      keyAfter (turn :: earlier) = some apiKey
  created : ∀ title data options uniqueId, turn.result = .created title data options uniqueId →
    Made sanitizeHost turn earlier title data options uniqueId
  not_raised : turn.result ≠ .raised

structure Inv (sanitizeHost : String → String) (S : SetupFlow) : Prop where
  key : S.config.apiKey.filter (fun key => key ≠ "") = keyAfter S.turns
  scratch : S.config.migrationDone = fromScratch S.turns
  options : S.legacyOptions = optionsAfter S.turns
  waiting : S.waits = true → S.config.systemId = none ∧ S.uniqueId = discoveredHost sanitizeHost S.turns
  sound : Always (fun turns => ∀ turn earlier, turns = turn :: earlier → Sound sanitizeHost turn earlier) S.turns

theorem waits_of_allowed {S : SetupFlow} {a : Action} (h : allowed S a = true) : S.waits = true := by
  unfold SetupFlow.waits
  cases a with
  | user | zeroconf info =>
    have hnil : S.turns = [] := List.isEmpty_iff.mp h
    rw [hnil]
    rfl
  | submit input | zeroconfConfirm | migrateImport | migrateManual =>
    simp only [allowed] at h
    split at h
    · rename_i heq
      rw [heq]
    · cases h

theorem key_update (config : Working) (input : Submission) :
    (config.update sanitizeHost input).apiKey.filter (fun key => key ≠ "") =
      if input.apiKey = "" then config.apiKey.filter (fun key => key ≠ "") else some input.apiKey := by
  have hkey : (config.update sanitizeHost input).apiKey =
      (popBlankApiKey input.apiKey (present config.apiKey)).or config.apiKey := rfl
  rw [hkey,popBlankApiKey]
  by_cases hblank : input.apiKey = ""
  · cases hpresent : present config.apiKey with
    | true => simp [hblank]
    | false =>
      rw [if_pos hblank,filter_of_not_present hpresent,hblank]
      simp
  · simp [hblank]

theorem Sound.of_quiet {turn : Turn} {earlier : List Turn} (hrequests : turn.requests = [])
    (hresult : turn.result = .menu ∨ (∃ prefill errors, turn.result = .userForm prefill errors) ∨
      ∃ reason host, turn.result = .abort reason host) : Sound sanitizeHost turn earlier := by
  have hnone : ∀ r, ¬ r ∈ turn.requests := fun r hr => by
    rw [hrequests] at hr
    cases hr
  refine ⟨fun host h => absurd h (hnone _),fun host apiKey verifySsl h => absurd h (hnone _),fun _ _ _ _ h => ?_,?_⟩
  · rcases hresult with heq | ⟨_,_,heq⟩ | ⟨_,_,heq⟩
    all_goals
      rw [heq] at h
      cases h
  · rcases hresult with heq | ⟨_,_,heq⟩ | ⟨_,_,heq⟩
    all_goals
      rw [heq]
      exact Result.noConfusion

theorem Inv.of_init {S : SetupFlow} (h : S = {}) : Inv sanitizeHost S := by
  subst h
  exact ⟨rfl,rfl,rfl,fun _ => ⟨rfl,rfl⟩,by simp⟩

variable {S T : SetupFlow} {turn : Turn}

theorem Inv.push (h : Inv sanitizeHost S)
    (hkey : T.config.apiKey.filter (fun key => key ≠ "") = keyAfter (turn :: S.turns))
    (hscratch : T.config.migrationDone = fromScratch (turn :: S.turns))
    (hoptions : T.legacyOptions = optionsAfter (turn :: S.turns))
    (hwaiting : { T with turns := turn :: S.turns }.waits = true → T.config.systemId = none ∧
      T.uniqueId = discoveredHost sanitizeHost (turn :: S.turns))
    (hsound : Sound sanitizeHost turn S.turns) : Inv sanitizeHost { T with turns := turn :: S.turns } := by
  refine ⟨hkey,hscratch,hoptions,hwaiting,always_cons.mpr ⟨?_,h.sound⟩⟩
  rintro _ _ ⟨⟩
  exact hsound

theorem Inv.opened (h : Inv sanitizeHost S) (hwaits : S.waits = true) {w : World} {a : Action} {legacy : Option Legacy}
    {config : Working} {options : Fields} (hid : config.systemId = S.config.systemId)
    (hkey : config.apiKey.filter (fun key => key ≠ "") = keyAfter (⟨w,a,legacy,[],.menu⟩ :: S.turns))
    (hscratch : config.migrationDone = fromScratch (⟨w,a,legacy,[],.menu⟩ :: S.turns))
    (hoptions : options = optionsAfter (⟨w,a,legacy,[],.menu⟩ :: S.turns))
    (ha : ∀ info, a ≠ .zeroconf info) :
    Inv sanitizeHost { (openUserStep sanitizeHost w { S with config := config, legacyOptions := options }).1 with
      turns := ⟨w,a,legacy,[],(openUserStep sanitizeHost w { S with config := config, legacyOptions := options }).2⟩ ::
        S.turns } := by
  obtain ⟨host,checked,hT,hresult⟩ := @openUserStep_spec sanitizeHost w
    { S with config := config, legacyOptions := options }
  obtain ⟨hsystem,hunique⟩ := h.waiting hwaits
  have hdiscovered : ∀ result, discoveredHost sanitizeHost (⟨w,a,legacy,[],result⟩ :: S.turns) =
      discoveredHost sanitizeHost S.turns := by
    intro result
    unfold discoveredHost
    rw [List.findSome?_cons]
    cases a with
    | zeroconf info => exact absurd rfl (ha info)
    | user | submit input | zeroconfConfirm | migrateImport | migrateManual => rfl
  rw [hT]
  refine h.push hkey hscratch hoptions (fun _ => ⟨hid.trans hsystem,?_⟩) (Sound.of_quiet rfl ?_)
  · rw [hdiscovered]
    exact hunique
  · rcases hresult with heq | ⟨prefill,heq⟩
    · exact Or.inl heq
    · exact Or.inr (Or.inl ⟨prefill,[],heq⟩)

theorem discoveredHost_cons (h : ∀ info, turn.action ≠ .zeroconf info) (earlier : List Turn) :
    discoveredHost sanitizeHost (turn :: earlier) = discoveredHost sanitizeHost earlier := by
  unfold discoveredHost
  rw [List.findSome?_cons]
  split
  · rename_i host heq
    split at heq
    · rename_i info hinfo
      exact absurd hinfo (h info)
    · cases heq
  · rfl

theorem Inv.submitted (h : Inv sanitizeHost S) (hwaits : S.waits = true) {w : World} {input : Submission}
    {requests : List Request} {result : Result} (hs : Submitted sanitizeHost w S input T requests result) :
    Inv sanitizeHost { T with turns := ⟨w,.submit input,none,requests,result⟩ :: S.turns } := by
  obtain ⟨hsystem,hunique⟩ := h.waiting hwaits
  have hkey : (S.config.update sanitizeHost input).apiKey.filter (fun key => key ≠ "") =
      keyAfter (⟨w,.submit input,none,requests,result⟩ :: S.turns) := by
    rw [key_update,h.key]
    rfl
  have hafter : ∀ {apiKey}, (S.config.update sanitizeHost input).apiKey = some apiKey → apiKey ≠ "" →
      keyAfter (⟨w,.submit input,none,requests,result⟩ :: S.turns) = some apiKey := by
    intro apiKey hsome hne
    rw [← hkey,hsome]
    simp [hne]
  have hdiscovered := @discoveredHost_cons sanitizeHost
    ⟨w,.submit input,none,requests,result⟩ (fun _ => Action.noConfusion) S.turns
  have hoptions : S.legacyOptions = optionsAfter (⟨w,.submit input,none,requests,result⟩ :: S.turns) := h.options
  have hscratch : S.config.migrationDone = fromScratch (⟨w,.submit input,none,requests,result⟩ :: S.turns) := h.scratch
  have htests : ∀ {apiKey}, (S.config.update sanitizeHost input).apiKey = some apiKey → apiKey ≠ "" →
      ∀ host key ssl, Request.test host key ssl ∈ [Request.test (sanitizeHost input.host) apiKey input.verifySsl] →
      ∃ input', Action.submit input = .submit input' ∧ host = sanitizeHost input'.host ∧ ssl = input'.verifySsl ∧
        keyAfter (⟨w,.submit input,none,requests,result⟩ :: S.turns) = some key := by
    intro apiKey hsome hne host key ssl hmem
    cases List.mem_singleton.mp hmem
    exact ⟨input,rfl,rfl,rfl,hafter hsome hne⟩
  have hprobes : ∀ {apiKey}, ∀ host, Request.probe host ∈ [Request.test (sanitizeHost input.host) apiKey input.verifySsl] →
      ∃ info, Action.submit input = .zeroconf info ∧ host ∈ probeCandidates (sanitizeHost info.host) info.port :=
    fun host hmem => (by cases List.mem_singleton.mp hmem)
  cases hs with
  | hasEntry =>
    exact h.push hkey hscratch hoptions (fun hw => (by cases hw)) (Sound.of_quiet rfl (Or.inr (Or.inr ⟨_,_,rfl⟩)))
  | rejected prefill errors =>
    refine h.push hkey hscratch hoptions (fun _ => ⟨hsystem,?_⟩) (Sound.of_quiet rfl (Or.inr (Or.inl ⟨_,_,rfl⟩)))
    rw [hdiscovered]
    exact hunique
  | failed prefill errors hsome hne =>
    refine h.push hkey hscratch hoptions (fun _ => ⟨hsystem,?_⟩) ⟨hprobes,htests hsome hne,?_,Result.noConfusion⟩
    · rw [hdiscovered]
      exact hunique
    · exact fun _ _ _ _ => Result.noConfusion
  | boxKnown _ reason host hsome hne hconfig =>
    refine h.push ?_ (hconfig.2.1.trans hscratch) (hconfig.2.2.trans hoptions) (fun hw => (by cases hw))
      ⟨hprobes,htests hsome hne,fun _ _ _ _ => Result.noConfusion,Result.noConfusion⟩
    rw [hconfig.1,← hsome]
    exact hkey
  | created hsome hne hconnect hnew hid hT =>
    subst hT
    refine h.push hkey hscratch hoptions (fun hw => (by cases hw)) ⟨hprobes,htests hsome hne,?_,Result.noConfusion⟩
    rintro _ _ _ _ ⟨⟩
    refine ⟨input,_,_,rfl,hafter hsome hne,rfl,hconnect,rfl,?_,?_,?_,hnew,hid⟩
    · have hmerged : (popBlankApiKey input.apiKey (present S.config.apiKey)).or S.config.apiKey = some _ := hsome
      simp only [Working.update,hmerged,h.scratch]
    · rw [h.options]
    · rw [hunique]

theorem Inv.discovered (h : Inv sanitizeHost S) (hturns : S.turns = []) {w : World} {info : ServiceInfo}
    {requests : List Request} {result : Result} (hs : Discovered sanitizeHost S info T requests result) :
    Inv sanitizeHost { T with turns := ⟨w,.zeroconf info,none,requests,result⟩ :: S.turns } := by
  have hwaits : S.waits = true := by
    unfold SetupFlow.waits
    rw [hturns]
    rfl
  have hsound : ∀ {requests result}, (∀ r ∈ requests, ∃ host ∈ probeCandidates (sanitizeHost info.host) info.port,
      r = .probe host) → (∀ title data options uniqueId, result ≠ .created title data options uniqueId) →
      result ≠ .raised → Sound sanitizeHost ⟨w,.zeroconf info,none,requests,result⟩ S.turns := by
    intro requests result hprobes hcreated hraised
    refine ⟨fun host hmem => ⟨info,rfl,?_⟩,fun host apiKey ssl hmem => ?_,
      fun _ _ _ _ heq => absurd heq (hcreated _ _ _ _),hraised⟩
    · obtain ⟨host',hcandidate,heq⟩ := hprobes _ hmem
      cases heq
      exact hcandidate
    · obtain ⟨host',-,heq⟩ := hprobes _ hmem
      cases heq
  cases hs with
  | aborted uniqueId reason hprobes =>
    exact h.push h.key h.scratch h.options (fun hw => (by cases hw))
      (hsound hprobes (fun _ _ _ _ => Result.noConfusion) Result.noConfusion)
  | confirm found hprobes =>
    exact h.push h.key h.scratch h.options (fun _ => ⟨(h.waiting hwaits).1,rfl⟩)
      (hsound hprobes (fun _ _ _ _ => Result.noConfusion) Result.noConfusion)

theorem Inv.step (h : Inv sanitizeHost S) {a : World × Action} {S' : SetupFlow} (he : step sanitizeHost S a = some S') :
    Inv sanitizeHost S' := by
  obtain ⟨w,a⟩ := a
  unfold Setup.step at he
  split at he
  · rename_i hallowed
    have hwaits := waits_of_allowed hallowed
    cases a with
    | submit input =>
      cases he
      exact h.submitted hwaits (submitted_applyUserInput (h.waiting hwaits).1 input)
    | zeroconf info =>
      cases he
      exact h.discovered (List.isEmpty_iff.mp hallowed) (discovered_stepZeroconf w S info)
    | user | zeroconfConfirm =>
      cases he
      exact h.opened hwaits rfl h.key h.scratch h.options (fun _ => Action.noConfusion)
    | migrateManual =>
      cases he
      exact h.opened hwaits rfl h.key rfl h.options (fun _ => Action.noConfusion)
    | migrateImport =>
      simp only [perform] at he
      split at he
      · cases he
        exact h.opened hwaits rfl h.key h.scratch h.options (fun _ => Action.noConfusion)
      · rename_i legacy hlegacy
        cases he
        refine h.opened hwaits rfl ?_ h.scratch rfl (fun _ => Action.noConfusion)
        change (some (legacy.apiKey.getD "")).filter _ = legacy.apiKey.filter _
        cases legacy.apiKey with
        | none => simp
        | some key => rfl
  · cases he

theorem inv_of_reachable (hr : (system sanitizeHost).Reachable S) : Inv sanitizeHost S :=
  hr.invariant (fun _ => Inv.of_init) (fun h _ he => h.step he)

theorem sound_of_reachable (hr : (system sanitizeHost).Reachable S) {later earlier : List Turn}
    (hturns : S.turns = later ++ turn :: earlier) : Sound sanitizeHost turn earlier :=
  (inv_of_reachable hr).sound (turn :: earlier) ⟨later,hturns.symm⟩ turn earlier rfl

/-- A key goes only to the host that the user has just submitted, and it is the one that was entered last or came with
the legacy entry that the user took over; a discovered host gets the key "-" only. -/
theorem requests_of_reachable (hr : (system sanitizeHost).Reachable S) {later earlier : List Turn}
    (hturns : S.turns = later ++ turn :: earlier) {r : Request} (hmem : r ∈ turn.requests) :
    match r with
    | .probe host =>
      ∃ info, turn.action = .zeroconf info ∧ host ∈ probeCandidates (sanitizeHost info.host) info.port
    | .test host apiKey verifySsl => ∃ input, turn.action = .submit input ∧ host = sanitizeHost input.host ∧
        verifySsl = input.verifySsl ∧ keyAfter (turn :: earlier) = some apiKey := by
  have h := sound_of_reachable hr hturns
  cases r with
  | probe host => exact h.probes host hmem
  | test host apiKey verifySsl => exact h.tests host apiKey verifySsl hmem

/-- An entry has exactly what the last form entered, with the key in force, and its connection has been tested in that
very step; its system id is the one that this box gave. No step reads a field that is missing. -/
theorem made_of_reachable (hr : (system sanitizeHost).Reachable S) {later earlier : List Turn}
    (hturns : S.turns = later ++ turn :: earlier) : turn.result ≠ .raised ∧
      ∀ title data options uniqueId, turn.result = .created title data options uniqueId →
        Made sanitizeHost turn earlier title data options uniqueId :=
  ⟨(sound_of_reachable hr hturns).not_raised,(sound_of_reachable hr hturns).created⟩

/-- The box is discovered, its entry of the legacy integration is taken over, and the form is submitted with a blank
key. -/
def oldBox : Legacy := { host := some "nas.local", apiKey := some "1-secret" }

def homeNetwork : World where
  legacy := [oldBox]
  answers host := host = "nas.local"
  connect host apiKey _ := if host = "nas.local" ∧ apiKey = "1-secret" then .connected (some "box-1") else .failed "invalid_key"

def blankKey : Submission where
  name := "TrueNAS"
  host := "nas.local"
  apiKey := ""
  verifySsl := false
  cronjobSkipDisabled := true
  dataUnit := "GiB"

def takenOver : List (World × Action) :=
  [(homeNetwork,.zeroconf ⟨"nas.local",some 80⟩),(homeNetwork,.zeroconfConfirm),(homeNetwork,.migrateImport),
    (homeNetwork,.submit blankKey)]

theorem run_takenOver : ∃ S turn earlier, (system id).run (fun _ _ => True) {} takenOver = some S ∧
    S.turns = turn :: earlier ∧ turn.action = .submit blankKey ∧
    turn.requests = [.test "nas.local" "1-secret" false] ∧
    ∃ data, turn.result = .created "TrueNAS" data [("data_unit",.str "GiB")] (some "box-1") :=
  ⟨_,_,_,rfl,rfl,rfl,rfl,_,rfl⟩

theorem requests_of_takenOver : ∃ turn earlier, turn.requests = [.test "nas.local" "1-secret" false] ∧
    keyAfter (turn :: earlier) = some "1-secret" := by
  obtain ⟨S,turn,earlier,hrun,hturns,-,hrequests,-⟩ := run_takenOver
  have hr : (system id).Reachable S := (System.Reach.init rfl).run hrun
  have hlater : S.turns = [] ++ turn :: earlier := hturns
  obtain ⟨_,-,-,-,hkey⟩ := requests_of_reachable (r := .test "nas.local" "1-secret" false) hr hlater
    (by rw [hrequests]; exact List.mem_singleton_self _)
  exact ⟨turn,earlier,hrequests,hkey⟩

theorem made_of_takenOver : ∃ turn earlier data, Made id turn earlier "TrueNAS" data [("data_unit",.str "GiB")]
    (some "box-1") := by
  obtain ⟨S,turn,earlier,hrun,hturns,-,-,data,hresult⟩ := run_takenOver
  have hr : (system id).Reachable S := (System.Reach.init rfl).run hrun
  have hlater : S.turns = [] ++ turn :: earlier := hturns
  have hmade := (made_of_reachable hr hlater).2 _ _ _ _ hresult
  exact ⟨turn,earlier,data,hmade⟩

end TruenasCE.Flow.Setup
