import TruenasCE.Library.Coroutine
import TruenasCE.Library.Mapping
import TruenasCE.Actions.Session

/-! # The calls of the API and the error of a task

`_CALL_ERRORS` is a context variable: every task has a mapping of its own from the APIs to the errors of its latest
calls, and starts with that of the task that makes it. The keys are weak references, so that a mapping may hold the
keys of APIs that are gone. APIs are told by number; a key is dead when its API is not alive.
-/
namespace TruenasCE.Api
open Library ApiParser

export Actions (ErrorClass classifyException callErrorText errUnknown)

def errLostQuery : String := "connection_lost_mid_query"
def errConnectionRefused : String := "connection_refused"
def errMalformedResult : String := "malformed_result"
def errPermissionDenied : String := "permission_denied"

/-- A mapping that `_CALL_ERRORS` holds: no key twice, and no error that is cleared -/
structure Errors where
  entries : Mapping ℕ String
  nodup : (Mapping.keys entries).Nodup
  told : ∀ p ∈ entries, p.2 ≠ ""

namespace Errors

def empty : Errors := ⟨[],List.nodup_nil,fun _ h => absurd h List.not_mem_nil⟩

/-- The getter of `_error` -/
def get (errors : Errors) (api : ℕ) : String := (errors.entries.lookup api).getD ""

def hasDead (errors : Errors) (alive : ℕ → Bool) : Bool := (Mapping.keys errors.entries).any (fun key => !alive key)

def kept (errors : Errors) (alive : ℕ → Bool) (api : ℕ) : Mapping ℕ String :=
  errors.entries.retain (fun key => decide (key ≠ api) && alive key)

theorem keys_kept (errors : Errors) (alive : ℕ → Bool) (api : ℕ) : Mapping.keys (errors.kept alive api) =
    (Mapping.keys errors.entries).filter (fun key => decide (key ≠ api) && alive key) := Mapping.keys_retain

theorem notMem_kept (errors : Errors) (alive : ℕ → Bool) (api : ℕ) : api ∉ Mapping.keys (errors.kept alive api) := by
  rw [keys_kept]
  simp

/-- The setter of `_error` -/
def set (errors : Errors) (alive : ℕ → Bool) (api : ℕ) (value : String) : Errors :=
  if !errors.hasDead alive && errors.get api = value then errors
  else if hvalue : value = "" then
    { entries := errors.kept alive api
      nodup := by
        rw [keys_kept]
        exact errors.nodup.filter _
      told := fun p hp => errors.told p (List.mem_of_mem_filter hp) }
  else
    { entries := Mapping.set (errors.kept alive api) api value
      nodup := by
        rw [Mapping.keys_set_of_notMem (errors.notMem_kept alive api),keys_kept]
        have hnot := errors.notMem_kept alive api
        rw [keys_kept] at hnot
        exact (errors.nodup.filter _).append (List.nodup_singleton _) (List.disjoint_singleton.mpr hnot)
      told := fun p hp => by
        rcases Mapping.mem_of_mem_set hp with rfl | hp
        · exact hvalue
        · exact errors.told p (List.mem_of_mem_filter hp) }

end Errors

inductive Request
  | connect (quiet : Bool)
  | call (service : String) (params : Value) (job : Bool)
  | subscribe (event : String)
  | unsubscribe (subscriptionId : String)
  | getSubscriptionEvents (subscriptionId : String) (eventTimeout : Option ℚ)
  | isSubscribed (subscriptionId : String)

/-- How a request to the client fails -/
inductive Failure
  /-- `TrueNASCallError`, with the text of it scrubbed -/
  | callError (reason text errname : String)
  /-- Any other `TrueNASError`, which may be a `TrueNASConnectionError` -/
  | clientError (error : ErrorClass) (isConnectionError : Bool)
  /-- An exception that no call of the API catches -/
  | raised (isException : Bool)

abbrev Request.Answer : Request → Type
  | .connect _ => Unit
  | .call _ _ _ => Value
  -- the id of the subscription, and the number of its queue
  | .subscribe _ => String × ℕ
  | .unsubscribe _ => Unit
  | .getSubscriptionEvents _ _ => List Value
  | .isSubscribed _ => Bool

abbrev Reply (r : Request) : Type := Except Failure r.Answer

/-- `_classify_exception`; no entry of its table is a class of call errors. -/
def Failure.classified (duringCall : Bool) : Failure → String
  | .clientError e _ => classifyException duringCall e
  | .callError _ _ _ => errUnknown
  | .raised _ => errUnknown

/-- What the handlers of a call leave in `_error` -/
def Failure.text : Failure → String
  | .callError reason text _ => callErrorText reason text
  | f => f.classified true

/-- What the calls of the API read besides their task's errors: which APIs are alive, whose client is connected, and
which were closed for good -/
structure Around where
  alive : ℕ → Bool
  connected : ℕ → Bool
  closed : ℕ → Bool

abbrev Call (α : Type) : Type := Coroutine Errors Around Reply Bool α

def look {α : Type} (f : Errors → Around → α) : Call α := .read (fun errors around => .done (f errors around))

def ask (r : Request) : Call (Reply r) := .await r .done

section Calls
variable (api : ℕ)

def error : Call String := look (fun errors _ => errors.get api)

def setError (value : String) : Call Unit :=
  .read (fun errors around => .write (errors.set around.alive api value) (.done ()))

def connected : Call Bool := look (fun _ around => around.connected api)

def connect (quiet : Bool) : Call Bool := do
  if ← look (fun _ around => around.closed api) then
    setError api errUnknown
    return false
  else if ← look (fun _ around => around.connected api) then
    setError api ""
    return true
  else
    match ← ask (.connect quiet) with
    | .error (.raised isException) => .raise isException
    | .error failure =>
      setError api (failure.classified false)
      return false
    | .ok _ =>
      setError api ""
      return true

/-- `self.connected() or await self.connect()` -/
def connectedOrConnect : Call Bool := do
  if ← connected api then
    return true
  else
    connect api false

structure CallResult where
  data : Value
  error : String
  errname : String

def query (service : String) (params : Value) (job : Bool) : Call CallResult := do
  if ← connectedOrConnect api then
    setError api ""
    match ← ask (.call service params job) with
    | .error (.raised isException) => .raise isException
    | .error (.callError reason text errname) =>
      setError api (callErrorText reason text)
      return ⟨.none,← error api,errname⟩
    | .error failure =>
      setError api (failure.classified true)
      return ⟨.none,← error api,""⟩
    | .ok data => return ⟨data,"",""⟩
  else
    return ⟨.none,← error api,""⟩

/-- The answer of `system.info` is a dict with a hostname. -/
def hasHostname : Value → Bool
  | .dict fields => (dictGet fields "hostname").truthy
  | _ => false

def connectionTest : Call (Bool × String) := do
  if ← connect api false then
    let r ← query api "system.info" .none false
    if hasHostname r.data then
      return (true,"")
    else
      let error' := if r.errname = "EACCES" then errPermissionDenied else r.error
      setError api (if error' ≠ "" then error' else errMalformedResult)
      return (false,← error api)
  else
    return (← connected api,← error api)

def subscribeEvents (event : String) : Call (Option (String × ℕ)) := do
  if ← connectedOrConnect api then
    setError api ""
    match ← ask (.subscribe event) with
    | .error (.raised isException) => .raise isException
    | .error failure =>
      setError api failure.text
      return none
    | .ok subscription => return some subscription
  else
    let before ← error api
    setError api (if before ≠ "" then before else errConnectionRefused)
    return none

def unsubscribeEvents (subscriptionId : String) : Call Unit := do
  if ← connected api then
    match ← ask (.unsubscribe subscriptionId) with
    | .error (.raised isException) => .raise isException
    | .error (.callError _ _ _) => return ()
    | .error failure => setError api (failure.classified true)
    | .ok _ => return ()
  else
    return ()

def Failure.isConnectionError : Failure → Bool
  | .clientError _ b => b
  | _ => false

/-- The handlers of `get_subscription_events` -/
def unreadable (failure : Failure) : Call (List Value × String × Bool) :=
  match failure with
  | .raised isException => .raise isException
  | failure => do
    setError api failure.text
    return ([],← error api,failure.isConnectionError)

def getSubscriptionEvents (subscriptionId : String) (eventTimeout : Option ℚ) : Call (List Value × String × Bool) := do
  if ← connectedOrConnect api then
    setError api ""
    match ← ask (.getSubscriptionEvents subscriptionId eventTimeout) with
    | .error failure => unreadable api failure
    | .ok events =>
      if events.isEmpty then
        match ← ask (.isSubscribed subscriptionId) with
        | .error failure => unreadable api failure
        | .ok true => return ([],"",false)
        | .ok false =>
          setError api errLostQuery
          return ([],← error api,true)
      else
        return (events,"",false)
  else
    let before ← error api
    let connectError := if before ≠ "" then before else errConnectionRefused
    setError api connectError
    return ([],connectError,true)

def isSubscribed (subscriptionId : String) : Call Bool := do
  if ← connected api then
    match ← ask (.isSubscribed subscriptionId) with
    | .error (.raised isException) => .raise isException
    | .error failure =>
      setError api (failure.classified true)
      return false
    | .ok b => return b
  else
    return false

end Calls
end TruenasCE.Api
