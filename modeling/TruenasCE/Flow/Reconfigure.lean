import Mathlib.Data.Finset.Sort
import TruenasCE.Library.Overlay
import TruenasCE.Flow.Passphrases

/-! # The reconfigure flow

The flow keeps `truenas_config` between two submissions of the form, and merges into it what a
submission enters before it knows whether the submission is accepted.
-/
namespace TruenasCE.Flow
open Library

/-- The data of an entry, as far as the flow reads it; `π` is how the dataset passphrases are kept. -/
structure Config (π : Type) where
  name : String
  host : String
  apiKey : String
  verifySsl : Bool
  passphrases : Option π
  systemId : Option String
  deriving DecidableEq

structure UserInput (π : Type) where
  host : Option String := none
  apiKey : Option String := none
  verifySsl : Option Bool := none
  passphrases : Option π := none

/-- `CONF_DATASET_PASSPHRASES` in the working data: the mapping, or the raw text of the form. -/
inductive PassphraseValue
  | mapping (d : Passphrases)
  | text (t : String)
  deriving DecidableEq

/-- The constructor of the API raises `ValueError`, the connection test fails (one that raises has
the empty code), or it succeeds and the read of `system.global.id` may give an id. -/
inductive Connection
  | invalidHost
  | failed (errorcode : String)
  | connected (systemId : Option String)

/-- What a submission meets: the names in `coordinator.ds["dataset"]`, if there is a coordinator,
and the outcome of a connection for each host, API key and `verify_ssl`. -/
structure Site where
  datasets : Option (Finset String)
  connect : String → String → Bool → Connection

abbrev Errors := List (String × String)

inductive FlowResult
  | form (errors placeholders : Errors) (host : String) (verifySsl : Bool)
  | abort (title : String) (data : Config PassphraseValue)
  | raised
  deriving DecidableEq

def Config.raw (c : Config Passphrases) : Config PassphraseValue := { c with passphrases := c.passphrases.map .mapping }

def mapErrorToHa (errorcode : String) : String :=
  if errorcode ∈ ["certificate_verify_failed","http_used","tlsv1_not_supported","websocket_not_supported","invalid_key",
    "proxy_intercepted","invalid_hostname","unknown_hostname","connection_refused","handshake_timeout","api_not_found",
    "malformed_result","timeout","connection_lost_mid_login","connection_lost_mid_query","permission_denied"]
  then errorcode else "unknown"

def getSystemId (answer : Option String) : Option String := answer.filter (fun id => id ≠ "")

def Site.validateConnection (site : Site) (config : Config PassphraseValue) : Config PassphraseValue × Errors :=
  match site.connect config.host config.apiKey config.verifySsl with
  | .invalidHost => (config,[("host","invalid_hostname")])
  | .failed errorcode => (config,[("host",mapErrorToHa errorcode)])
  | .connected answer => ({ config with systemId := (getSystemId answer).or config.systemId },[])

def Site.checkConnectionIfChanged (site : Site) (config : Config PassphraseValue) (entry : Config Passphrases) :
    Config PassphraseValue × Errors :=
  if config.host ≠ entry.host ∨ config.apiKey ≠ entry.apiKey ∨ config.verifySsl ≠ entry.verifySsl
  then site.validateConnection config else (config,[])

/-- `_validate_passphrase_names`: the errors and the placeholders of their texts. -/
def Site.validatePassphraseNames (site : Site) (new : Passphrases) : Errors × Errors :=
  match site.datasets with
  | none => ([],[])
  | some known =>
    if known = ∅ then ([],[])
    else if new.keys.filter (· ∉ known) = ∅ then ([],[])
    else ([("dataset_passphrases","unknown_dataset")],
      [("datasets",", ".intercalate ((new.keys.filter (· ∉ known)).sort (· ≤ ·)))])

/-- `dict(truenas_config.get(CONF_DATASET_PASSPHRASES) or {})` raises for a text. -/
def existing : Option PassphraseValue → Option Passphrases
  | none => some ∅
  | some (.mapping d) => some d
  | some (.text t) => if t = "" then some ∅ else none

/-- `_apply_passphrase_input`: what becomes of the text in `user_input`, the errors and their
placeholders; nothing if it raises. -/
def Site.applyPassphraseInput (site : Site) (newText : String) (stored : Option PassphraseValue) :
    Option (Option PassphraseValue × Errors × Errors) :=
  if strip newText.toList = [] then some (none,[],[])
  else
    match textToPassphrases newText with
    | .error (errorKey,badLine) => some (some (.text newText),[("dataset_passphrases",errorKey)],[("line",badLine)])
    | .ok new =>
      match if new = ∅ then ([],[]) else site.validatePassphraseNames new with
      | ([],placeholders) => (existing stored).map (fun old => (some (.mapping (new ∪ old)),[],placeholders))
      | (errors,placeholders) => some (some (.text newText),errors,placeholders)

def popBlankApiKey (apiKey : Option String) : Option String := apiKey.filter (fun key => key ≠ "")

def Config.update {π : Type} (config : Config π) (input : UserInput π) : Config π :=
  { config with
    host := input.host.getD config.host
    apiKey := input.apiKey.getD config.apiKey
    verifySsl := input.verifySsl.getD config.verifySsl
    passphrases := input.passphrases.or config.passphrases }

def Config.written (entry : Config Passphrases) (config : Config PassphraseValue) : Config PassphraseValue :=
  { config with
    passphrases := config.passphrases.or entry.raw.passphrases
    systemId := config.systemId.or entry.systemId }

def showForm (config : Config PassphraseValue) (errors placeholders : Errors) : FlowResult × Config PassphraseValue :=
  (.form errors placeholders config.host config.verifySsl,config)

variable (sanitizeHost : String → String)

/-- What a submission that enters passphrases `value` writes into the working data. -/
def inputOf (input : UserInput String) (value : Option PassphraseValue) : UserInput PassphraseValue :=
  ⟨input.host.map sanitizeHost,popBlankApiKey input.apiKey,input.verifySsl,value⟩

def Site.conclude (site : Site) (entry : Config Passphrases) (config : Config PassphraseValue)
  (errors placeholders : Errors) :
    FlowResult × Config PassphraseValue :=
  if errors ≠ [] then showForm config errors placeholders
  else
    match site.checkConnectionIfChanged config entry with
    | (config,[]) => (.abort entry.name (entry.written config),config)
    | (config,errors) => showForm config errors placeholders

/-- `async_step_reconfigure` for a submission: the result and the working data behind it, which is
read from the entry if it is empty. -/
def reconfigure (entry : Config Passphrases) (working : Option (Config PassphraseValue)) (site : Site)
  (input : UserInput String) :
    FlowResult × Config PassphraseValue :=
  let config := working.getD entry.raw
  match input.passphrases with
  | none => site.conclude entry (config.update (inputOf sanitizeHost input none)) [] []
  | some newText =>
    match site.applyPassphraseInput newText config.passphrases with
    | none => (.raised,config)
    | some (value,errors,placeholders) =>
      site.conclude entry (config.update (inputOf sanitizeHost input value)) errors placeholders

def rejectAll (entry : Config Passphrases) : Option (Config PassphraseValue) → List (Site × UserInput String) →
    Option (Option (Config PassphraseValue))
  | working, [] => some working
  | working, (site,input) :: rest =>
    match reconfigure sanitizeHost entry working site input with
    | (.form _ _ _ _,config) => rejectAll entry (some config) rest
    | (.abort _ _,_) => none
    | (.raised,_) => none

end TruenasCE.Flow
