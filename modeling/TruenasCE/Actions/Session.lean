import TruenasCE.ApiParser.Value
import TruenasCE.Datasets.Locking
import TruenasCE.Scrub.Buttons

/-! # Calls of the API by the actions of the entities

`query` raises none of the errors of the client: it returns None and leaves the error in `api.error`, which holds
that of the latest call of the task. An action runs in a session that remembers what it has asked and done.
-/
namespace TruenasCE.Actions
open ApiParser

/-- The classes of `TrueNASError` that `_classify_exception` tells apart. -/
inductive ErrorClass
  | connectionClosed
  | certificateVerification
  | httpScheme
  | unsupportedTlsVersion
  | webSocketUnsupported
  | hostUnknown
  | connectionRefused
  | proxyIntercepted
  | endpointNotFound
  | handshakeTimeout
  | callTimeout
  | authentication
  | malformedResponse
  | other
  deriving DecidableEq, Repr

def errUnknown : String := "unknown_error"

def classifyException (duringCall : Bool) : ErrorClass → String
  | .connectionClosed => if duringCall then "connection_lost_mid_query" else "connection_lost_mid_login"
  | .certificateVerification => "certificate_verify_failed"
  | .httpScheme => "http_used"
  | .unsupportedTlsVersion => "tlsv1_not_supported"
  | .webSocketUnsupported => "websocket_not_supported"
  | .hostUnknown => "unknown_hostname"
  | .connectionRefused => "connection_refused"
  | .proxyIntercepted => "proxy_intercepted"
  | .endpointNotFound => "api_not_found"
  | .handshakeTimeout => "handshake_timeout"
  | .callTimeout => "timeout"
  | .authentication => "invalid_key"
  | .malformedResponse => "malformed_result"
  | .other => errUnknown

/-- `_call_error_text` of an error reply whose reason and text are scrubbed. -/
def callErrorText (reason text : String) : String :=
  if reason ≠ "" then reason else if text ≠ "" then text else errUnknown

inductive Outcome
  | closed
  | notConnected (error : ErrorClass)
  | callError (reason text : String)
  | clientError (error : ErrorClass)
  | result (data : Value)
  /-- An exception that is no `TrueNASError` passes through `query`; that of a cancelled task is no `Exception`. -/
  | raised (isException : Bool)

namespace Outcome

/-- What `_query` leaves in `api.error`. -/
def error : Outcome → String
  | .closed => errUnknown
  | .notConnected e => classifyException false e
  | .callError reason text => callErrorText reason text
  | .clientError e => classifyException true e
  | .result _ => ""
  | .raised _ => ""

def data : Outcome → Value
  | .result v => v
  | _ => .none

end Outcome

structure Query where
  method : String
  params : Value
  job : Bool := false

def readMethods : List String :=
  ["vm.get_instance","virt.instance.query","container.query","service.query","app.get_instance","cloudsync.query",
    "core.get_jobs"]

def Query.mutating (q : Query) : Bool := q.method ∉ readMethods

inductive Event
  | asked (query : Query) (outcome : Outcome)
  | refreshed
  | poolsRead
  | polled (jobId : Value)
  | markedRunning (dataPath : String) (objectId : Value)
  | notedExpectedDisconnect (reason : String)
  | clearedStatistics (ids : List String)
  | raisedRollbackIssue

namespace Event

def mutates : Event → Bool
  | .asked q _ => q.mutating
  | _ => false

def failed : Event → Bool
  | .asked _ o => o.error ≠ ""
  | _ => false

def reports : Event → Bool
  | .markedRunning _ _ => true
  | .notedExpectedDisconnect _ => true
  | _ => false

end Event

abbrev Events := List Event

/-- What an action gets from its surroundings, which may depend on all that it has asked and done so far. -/
structure Host where
  /-- `coordinator.host` -/
  name : String
  supportsServiceControl : Events → Bool
  supportsContainerApi : Events → Bool
  format : Value → String
  /-- `_data`, which polls and pushes replace while the action waits -/
  data : Events → Fields
  answer : Events → Query → Outcome
  refreshError : Events → String
  pools : Events → Scrub.Answer
  poolsError : Events → String
  /-- The answers to the polls of a job until the timeout, and the error of the latest one -/
  polls : Events → List Value × String
  /-- `config_entry.data.get(CONF_DATASET_PASSPHRASES, {})` -/
  passphrases : Value
  orphanedStatistics : List String
  rollbackPossible : Bool

structure Session where
  error : String
  events : Events

inductive Raised
  | homeAssistantError (translationKey : String) (placeholders : Fields)
  | serviceValidationError (translationKey : String) (placeholders : Fields)
  | datasetActionFailed (action : String) (dataset : Value) (host : String) (reason : Datasets.Reason)
  | keyError (name : String)
  | attributeError
  | typeError
  | passed (isException : Bool)

abbrev Act := ExceptT Raised (StateM Session)

structure Ran where
  result : Except Raised Unit
  events : Events

def Act.ends {α : Type} (act : Act α) (s : Session) : Except Raised α × Session := act.run.run s

def Act.ran (act : Act Unit) (s : Session) : Ran := ⟨(act.ends s).1,(act.ends s).2.events⟩

variable (host : Host)

def record (event : Event) : Act Unit := modify (fun s => { s with events := event :: s.events })

def query (q : Query) : Act Value := do
  let s ← get
  let outcome := host.answer s.events q
  set { s with error := outcome.error, events := .asked q outcome :: s.events }
  match outcome with
  | .raised isException => throw (.passed isException)
  | _ => return outcome.data

def data : Act Fields := do
  return host.data (← get).events

/-- `self._data[name]` -/
def item (name : String) : Act Value := do
  match (← data host).lookup name with
  | some value => return value
  | none => throw (.keyError name)

/-- `self._data.get(name)` -/
def field (name : String) : Act Value := do
  return dictGet (← data host) name

def refresh : Act Unit := modify (fun s =>
  { s with error := host.refreshError s.events, events := .refreshed :: s.events })

def orRaise {α : Type} : Except Raised α → Act α
  | .ok a => return a
  | .error raised => throw raised

def raiseIfApiError (action : String) : Act Unit := do
  let error := (← get).error
  if error ≠ "" then
    throw (.homeAssistantError "action_failed" [("action",.str action),("host",.str host.name),("error",.str error)])

def raiseUnsupported (entityId action : String) : Act Unit :=
  throw (.serviceValidationError "unsupported_action" [("action",.str action),("entity_id",.str entityId)])

end TruenasCE.Actions
