import TruenasCE.ApiParser.Value
import TruenasCE.Flow.HostGuess
import TruenasCE.Flow.Reconfigure
import TruenasCE.Library.Transition

/-! # The flow that sets up an entry

A flow begins with the user or with a box that is discovered, may take over an entry of the legacy integration, and
ends with an entry or an abort. Between two steps it waits for what the user does with the form or menu that it shows.
-/
namespace TruenasCE.Flow.Setup
open Library TruenasCE.ApiParser

structure Working where
  name : Option String := none
  host : Option String := none
  apiKey : Option String := none
  verifySsl : Option Bool := none
  cronjobSkipDisabled : Option Bool := none
  dataUnit : Option Value := none
  systemId : Option String := none
  migrationDone : Bool := false

structure Submission where
  name : String
  host : String
  apiKey : String
  verifySsl : Bool
  cronjobSkipDisabled : Bool
  dataUnit : String

structure Legacy where
  name : Option String := none
  host : Option String := none
  apiKey : Option String := none
  verifySsl : Option Bool := none
  cronjobSkipDisabled : Option Bool := none
  dataUnit : Option Value := none
  options : Fields := []

structure ServiceInfo where
  host : String
  port : Option ℕ

/-- What a step meets. Entries come and go while it waits, so the entry on which a flow with a unique id aborts is told
from what there is when it is asked for. -/
structure World where
  legacy : List Legacy := []
  guess : String := defaultHost
  entriesMatch : String → Bool := fun _ => false
  /-- `async_set_unique_id` finds another flow with this id in progress. -/
  inProgress : String → Bool := fun _ => false
  /-- There is an entry with this unique id, on which the flow aborts. -/
  configured : String → Bool := fun _ => false
  /-- An entry with exactly this host waits for its next setup retry, and has not been retried too recently. -/
  retrying : String → Bool := fun _ => false
  /-- The host rejects the key "-" as invalid. -/
  answers : String → Bool := fun _ => false
  isConfigured : Bool := false
  connect : String → String → Bool → Connection := fun _ _ _ => .failed "unknown_hostname"

inductive Request
  | probe (host : String)
  | test (host apiKey : String) (verifySsl : Bool)
  deriving DecidableEq

structure Prefill where
  name : String
  host : String
  verifySsl : Bool
  cronjobSkipDisabled : Bool
  dataUnit : Value

inductive Result
  | userForm (prefill : Prefill) (errors : Errors)
  | confirmForm (host : String)
  | menu
  | created (title : String) (data : Working) (options : Fields) (uniqueId : Option String)
  /-- The host that is written into the entry on which the flow aborts, if any. -/
  | abort (reason : String) (updatedHost : Option String)
  | raised

inductive Action
  | user
  | submit (input : Submission)
  | zeroconf (info : ServiceInfo)
  | zeroconfConfirm
  | migrateImport
  | migrateManual

structure Turn where
  world : World
  action : Action
  imported : Option Legacy := none
  requests : List Request := []
  result : Result

structure SetupFlow where
  config : Working := {}
  legacyOptions : Fields := []
  migrationChecked : Bool := false
  uniqueId : Option String := none
  turns : List Turn := []

/-- `if value:` of an optional text -/
def present (value : Option String) : Bool := value.any (fun s => s ≠ "")

def baseSchema (config : Working) : Prefill where
  name := config.name.getD "TrueNAS"
  host := config.host.getD defaultHost
  verifySsl := config.verifySsl.getD false
  cronjobSkipDisabled := config.cronjobSkipDisabled.getD true
  dataUnit := config.dataUnit.getD (.str "GiB")

variable (sanitizeHost : String → String)

def findLegacyConfig (legacyEntries : List Legacy) (config : Working) : Option Legacy :=
  match (if present config.host then legacyEntries.find? (fun entry =>
    present entry.host ∧ entry.host.map sanitizeHost = config.host.map sanitizeHost) else none) with
  | some entry => some entry
  | none => if legacyEntries.length = 1 then legacyEntries.head? else none

def Working.takeOver (config : Working) (legacy : Legacy) : Working :=
  { config with
    name := some (legacy.name.getD "TrueNAS")
    host := some (legacy.host.getD defaultHost)
    apiKey := some (legacy.apiKey.getD "")
    verifySsl := some (legacy.verifySsl.getD false)
    cronjobSkipDisabled := some (legacy.cronjobSkipDisabled.getD true)
    dataUnit := some ((legacy.options.lookup "data_unit").getD (legacy.dataUnit.getD (.str "GiB"))) }

def popBlankApiKey (apiKey : String) (keepExisting : Bool) : Option String :=
  if apiKey = "" ∧ keepExisting = true then none else some apiKey

/-- `truenas_config |= user_input`, with the host and the key as they are entered -/
def Working.update (config : Working) (input : Submission) : Working :=
  { config with
    name := some input.name
    host := some (sanitizeHost input.host)
    apiKey := (popBlankApiKey input.apiKey (present config.apiKey)).or config.apiKey
    verifySsl := some input.verifySsl
    cronjobSkipDisabled := some input.cronjobSkipDisabled
    dataUnit := some (.str input.dataUnit) }

def validateConnection (w : World) (config : Working) : Option (Working × Errors × List Request) :=
  match config.host,config.apiKey,config.verifySsl with
  | some host,some apiKey,some verifySsl =>
    match w.connect host apiKey verifySsl with
    | .invalidHost => some (config,[("host","invalid_hostname")],[])
    | .failed errorcode => some (config,[("host",mapErrorToHa errorcode)],[.test host apiKey verifySsl])
    | .connected answer =>
      some ({ config with systemId := (getSystemId answer).or config.systemId },[],[.test host apiKey verifySsl])
  | _,_,_ => none

theorem popBlankApiKey_true (apiKey : String) : popBlankApiKey apiKey true = Flow.popBlankApiKey (some apiKey) := by
  unfold popBlankApiKey Flow.popBlankApiKey
  by_cases hkey : apiKey = ""
  · simp [Option.filter_some,hkey]
  · simp [Option.filter_some,hkey]

theorem validateConnection_site {w : World} {site : Site} (hconnect : w.connect = site.connect) {config : Working}
    {reconfigured : Config PassphraseValue} (hhost : config.host = some reconfigured.host)
    (hkey : config.apiKey = some reconfigured.apiKey) (hverify : config.verifySsl = some reconfigured.verifySsl)
    (hid : config.systemId = reconfigured.systemId) :
    (validateConnection w config).map (fun r => (r.1.systemId,r.2.1)) =
      some ((site.validateConnection reconfigured).1.systemId,(site.validateConnection reconfigured).2) := by
  unfold validateConnection Site.validateConnection
  rw [hhost,hkey,hverify,hconnect]
  dsimp only
  cases site.connect reconfigured.host reconfigured.apiKey reconfigured.verifySsl with
  | invalidHost | failed errorcode => simp [hid]
  | connected answer => simp [hid]

def createEntry (S : SetupFlow) : Result :=
  match S.config.name with
  | none => .raised
  | some name => .created name { S.config with dataUnit := none }
    (Mapping.set S.legacyOptions "data_unit" (S.config.dataUnit.getD (.str "GiB"))) S.uniqueId

def concludeUserInput (w : World) (S : SetupFlow) (errors : Errors) : SetupFlow × Result :=
  if errors ≠ [] then (S,.userForm (baseSchema S.config) errors)
  else
    match S.config.systemId with
    | none => (S,createEntry S)
    | some systemId =>
      if systemId = "" then (S,createEntry S)
      else if w.inProgress systemId then (S,.abort "already_in_progress" none)
      else if w.configured systemId then ({ S with uniqueId := some systemId },.abort "already_configured" S.config.host)
      else ({ S with uniqueId := some systemId },createEntry { S with uniqueId := some systemId })

def applyUserInput (w : World) (S : SetupFlow) (input : Submission) : SetupFlow × List Request × Result :=
  let config := S.config.update sanitizeHost input
  match config.host with
  | none => ({ S with config := config },[],.raised)
  | some host =>
    if w.entriesMatch host then ({ S with config := config },[],.abort "already_configured" none)
    else if present config.apiKey = false then
      let (T,result) := concludeUserInput w { S with config := config } [("api_key","api_key_required")]
      (T,[],result)
    else
      match validateConnection w config with
      | none => ({ S with config := config },[],.raised)
      | some (config,errors,requests) =>
        let (T,result) := concludeUserInput w { S with config := config } errors
        (T,requests,result)

def showUserForm (w : World) (S : SetupFlow) : SetupFlow × Result :=
  let config := if present S.config.host then S.config else { S.config with host := some w.guess }
  ({ S with config := config },.userForm (baseSchema config) [])

def openUserStep (w : World) (S : SetupFlow) : SetupFlow × Result :=
  if S.migrationChecked = false then
    if (findLegacyConfig sanitizeHost w.legacy S.config).isSome then ({ S with migrationChecked := true },.menu)
    else showUserForm w { S with migrationChecked := true }
  else showUserForm w S

def probeCandidates (host : String) : Option ℕ → List String
  | none => [host]
  | some port => if port ∈ [80,443] then [host] else [host,host ++ ":" ++ toString port]

/-- The candidates that `_probe_is_truenas` tries: those before the first that answers, and that one. -/
def probed (w : World) : List String → List Request
  | [] => []
  | candidate :: rest => .probe candidate :: if w.answers candidate then [] else probed w rest

def stepZeroconf (w : World) (S : SetupFlow) (info : ServiceInfo) : SetupFlow × List Request × Result :=
  let host := sanitizeHost info.host
  let retried : List Request := if w.retrying host then [.probe host] else []
  if w.entriesMatch host then (S,retried,.abort "already_configured" none)
  else if w.inProgress host then (S,retried,.abort "already_in_progress" none)
  else
    let S := { S with uniqueId := some host }
    if w.configured host then (S,retried,.abort "already_configured" none)
    else
      let candidates := probeCandidates host info.port
      match candidates.find? w.answers with
      | none => (S,retried ++ probed w candidates,.abort "not_truenas" none)
      | some found =>
        if w.isConfigured then (S,retried ++ probed w candidates,.abort "already_configured" none)
        else ({ S with config := { S.config with host := some found } },retried ++ probed w candidates,.confirmForm found)

/-- A step that may be taken as the flow stands: the first one, or one behind the form or menu that is shown. -/
def allowed (S : SetupFlow) : Action → Bool
  | .user | .zeroconf _ => S.turns.isEmpty
  | .submit _ => (match S.turns.head?.map Turn.result with
    | some (.userForm _ _) => true
    | _ => false)
  | .zeroconfConfirm => (match S.turns.head?.map Turn.result with
    | some (.confirmForm _) => true
    | _ => false)
  | .migrateImport | .migrateManual => (match S.turns.head?.map Turn.result with
    | some .menu => true
    | _ => false)

/-- What a step does: the flow behind it, the legacy entry that it takes over, the connections and the result. -/
def perform (w : World) (S : SetupFlow) : Action → SetupFlow × Option Legacy × List Request × Result
  | .submit input =>
    let (T,requests,result) := applyUserInput sanitizeHost w S input
    (T,none,requests,result)
  | .user | .zeroconfConfirm =>
    let (T,result) := openUserStep sanitizeHost w S
    (T,none,[],result)
  | .zeroconf info =>
    let (T,requests,result) := stepZeroconf sanitizeHost w S info
    (T,none,requests,result)
  | .migrateImport =>
    match findLegacyConfig sanitizeHost w.legacy S.config with
    | none =>
      let (T,result) := openUserStep sanitizeHost w S
      (T,none,[],result)
    | some legacy =>
      let (T,result) := openUserStep sanitizeHost w
        { S with config := S.config.takeOver legacy, legacyOptions := legacy.options }
      (T,some legacy,[],result)
  | .migrateManual =>
    let (T,result) := openUserStep sanitizeHost w { S with config := { S.config with migrationDone := true } }
    (T,none,[],result)

def step (S : SetupFlow) (a : World × Action) : Option SetupFlow :=
  if allowed S a.2 then
    let (T,imported,requests,result) := perform sanitizeHost a.1 S a.2
    some { T with turns := ⟨a.1,a.2,imported,requests,result⟩ :: S.turns }
  else none

def system : System SetupFlow (World × Action) where
  init S := S = {}
  step := step sanitizeHost

end TruenasCE.Flow.Setup
