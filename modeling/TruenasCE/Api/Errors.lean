import Mathlib.Logic.Function.Basic
import TruenasCE.Api.Calls

/-! # The error that a task reads

Every task sees the outcome of its own latest call of an API, whatever the other tasks do with the same API in the
meantime. A mapping does not pile up the errors of APIs that are gone.
-/
namespace TruenasCE.Api
open Library ApiParser

inductive Method
  | connect (quiet : Bool)
  | connectionTest
  | query (service : String) (params : Value) (job : Bool)
  | subscribeEvents (event : String)
  | unsubscribeEvents (subscriptionId : String)
  | getSubscriptionEvents (subscriptionId : String) (eventTimeout : Option ℚ)
  | isSubscribed (subscriptionId : String)

namespace Method

/-- Calls that only record a failure, and never clear it -/
def bestEffort : Method → Bool
  | .unsubscribeEvents _ => true
  | .isSubscribed _ => true
  | _ => false

inductive Result
  | connected (b : Bool)
  | tested (ok : Bool) (error : String)
  | answered (r : CallResult)
  | subscription (s : Option (String × ℕ))
  | unsubscribed
  | events (events : List Value) (error : String) (isConnectionError : Bool)
  | subscribed (b : Bool)

def body (api : ℕ) : Method → Call Result
  | .connect quiet => do return .connected (← Api.connect api quiet)
  | .connectionTest => do
    let r ← Api.connectionTest api
    return .tested r.1 r.2
  | .query service params job => do return .answered (← Api.query api service params job)
  | .subscribeEvents event => do return .subscription (← Api.subscribeEvents api event)
  | .unsubscribeEvents subscriptionId => do
    let _ ← Api.unsubscribeEvents api subscriptionId
    return .unsubscribed
  | .getSubscriptionEvents subscriptionId eventTimeout => do
    let r ← Api.getSubscriptionEvents api subscriptionId eventTimeout
    return .events r.1 r.2.1 r.2.2
  | .isSubscribed subscriptionId => do return .subscribed (← Api.isSubscribed api subscriptionId)

end Method

abbrev Replies := List (Σ r, Reply r)

def failureOf : Method → (Σ r, Reply r) → Option String
  | _, ⟨.connect _,.error f⟩ => some (f.classified false)
  | .unsubscribeEvents _, ⟨_,.error (.callError _ _ _)⟩ => none
  | .isSubscribed _, ⟨_,.error f⟩ => some (f.classified true)
  | .connectionTest, ⟨.call _ _ _,.error (.callError reason text errname)⟩ =>
    some (if errname = "EACCES" then errPermissionDenied else callErrorText reason text)
  | .connectionTest, ⟨.call _ _ _,.ok data⟩ => if hasHostname data then none else some errMalformedResult
  | .getSubscriptionEvents _ _, ⟨.isSubscribed _,.ok false⟩ => some errLostQuery
  | _, ⟨_,.error f⟩ => some f.text
  | _, ⟨_,.ok _⟩ => none

/-- The failure of a call that ended behind its connection, without a request: the API was closed for good, unless the
call only connects or needs no connection. -/
def unasked (m : Method) : Method.Result → Option String
  | .connected true => none
  | _ => if m.bestEffort then none else some errUnknown

def failure (m : Method) (w : Replies) (r : Method.Result) : Option String :=
  match w.getLast? with
  | none => unasked m r
  | some ⟨.connect _,.ok _⟩ => unasked m r
  | some last => failureOf m last

/-- What a call leaves in `api.error` of its task -/
def outcome (m : Method) (w : Replies) (x : Except Bool Method.Result) (before : String) : String :=
  match x with
  | .ok r => (failure m w r).getD (if m.bestEffort then before else "")
  | .error _ =>
    if m.bestEffort then before
    else
      match w with
      | [⟨.connect _,_⟩] => before
      | _ => ""

def lostConnection (w : Replies) : Bool :=
  match w.getLast? with
  | none => true
  | some ⟨.connect _,_⟩ => true
  | some ⟨_,.error f⟩ => f.isConnectionError
  | some ⟨_,.ok _⟩ => true

def Failure.errname : Failure → String
  | .callError _ _ errname => errname
  | _ => ""

/-- The replies of an attempt to connect that fails: the API was closed for good before it, or the client refuses. -/
def Refused (api : ℕ) (quiet : Bool) (e : Around) (w : Replies) : Prop :=
  w = [] ∧ e.closed api = true ∨ ∃ f, w = [⟨.connect quiet,.error f⟩]

/-- What a call from `since` to `now` returns for the replies it got. -/
inductive Tells (api : ℕ) (since now : Around) (w : Replies) : Method → Method.Result → Prop
  | connected {quiet : Bool} : w = [] ∧ since.connected api = true ∨ w = [⟨.connect quiet,.ok ()⟩] →
      Tells api since now w (.connect quiet) (.connected true)
  | notConnected {quiet : Bool} : Refused api quiet since w →
      Tells api since now w (.connect quiet) (.connected false)
  | tested {data : Value} : w.getLast? = some ⟨.call "system.info" .none false,.ok data⟩ → hasHostname data = true →
      Tells api since now w .connectionTest (.tested true "")
  | notTested {reply : Reply (.call "system.info" .none false)} {error : String} :
      w.getLast? = some ⟨.call "system.info" .none false,reply⟩ →
      failure .connectionTest w (.tested false error) = some error →
      Tells api since now w .connectionTest (.tested false error)
  -- another call may have connected while this one could not
  | untested {error : String} : Refused api false since w →
      failure .connectionTest w (.tested (now.connected api) error) = some error →
      Tells api since now w .connectionTest (.tested (now.connected api) error)
  -- the connection that the test has made is gone before its query
  | lost {w' : Replies} {error : String} : w = ⟨.connect false,.ok ()⟩ :: w' → Refused api false now w' →
      failure .connectionTest w (.tested false error) = some error →
      Tells api since now w .connectionTest (.tested false error)
  | answered {service : String} {params data : Value} {job : Bool} :
      w.getLast? = some ⟨.call service params job,.ok data⟩ →
      Tells api since now w (.query service params job) (.answered ⟨data,"",""⟩)
  | notAnswered {service : String} {params : Value} {job : Bool} {f : Failure} :
      w.getLast? = some ⟨.call service params job,.error f⟩ →
      Tells api since now w (.query service params job) (.answered ⟨.none,f.text,f.errname⟩)
  | unsent {service : String} {params : Value} {job : Bool} {error : String} : Refused api false since w →
      failure (.query service params job) w (.answered ⟨.none,error,""⟩) = some error →
      Tells api since now w (.query service params job) (.answered ⟨.none,error,""⟩)
  | subscription {event : String} {s : String × ℕ} : w.getLast? = some ⟨.subscribe event,.ok s⟩ →
      Tells api since now w (.subscribeEvents event) (.subscription (some s))
  | noSubscription {event : String} :
      Refused api false since w ∨ (∃ f, w.getLast? = some ⟨.subscribe event,.error f⟩) →
      Tells api since now w (.subscribeEvents event) (.subscription none)
  | unsubscribed {subscriptionId : String} : Tells api since now w (.unsubscribeEvents subscriptionId) .unsubscribed
  | events {subscriptionId : String} {eventTimeout : Option ℚ} {events : List Value} :
      w.getLast? = some ⟨.getSubscriptionEvents subscriptionId eventTimeout,.ok events⟩ → events ≠ [] →
      Tells api since now w (.getSubscriptionEvents subscriptionId eventTimeout) (.events events "" false)
  | nothingNew {subscriptionId : String} {eventTimeout : Option ℚ} :
      w.getLast? = some ⟨.isSubscribed subscriptionId,.ok true⟩ →
      Tells api since now w (.getSubscriptionEvents subscriptionId eventTimeout) (.events [] "" false)
  | unread {subscriptionId : String} {eventTimeout : Option ℚ} {error : String} {lost : Bool} :
      Refused api false since w ∨
        (∃ f, w.getLast? = some ⟨.getSubscriptionEvents subscriptionId eventTimeout,.error f⟩) ∨
        (∃ reply, w.getLast? = some ⟨.isSubscribed subscriptionId,reply⟩) →
      lostConnection w = lost →
      failure (.getSubscriptionEvents subscriptionId eventTimeout) w (.events [] error lost) = some error →
      Tells api since now w (.getSubscriptionEvents subscriptionId eventTimeout) (.events [] error lost)
  | subscribed {subscriptionId : String} {b : Bool} : w.getLast? = some ⟨.isSubscribed subscriptionId,.ok b⟩ →
      Tells api since now w (.isSubscribed subscriptionId) (.subscribed b)
  | notSubscribed {subscriptionId : String} :
      w = [] ∧ since.connected api = false ∨ (∃ f, w.getLast? = some ⟨.isSubscribed subscriptionId,.error f⟩) →
      Tells api since now w (.isSubscribed subscriptionId) (.subscribed false)

/-- APIs only die. -/
def Later (e e' : Around) : Prop := ∀ k, e'.alive k = true → e.alive k = true

namespace Errors
variable {errors : Errors} {alive : ℕ → Bool} {api : ℕ} {value : String}

theorem get_set : (errors.set alive api value).get api = value := by
  unfold set
  split
  · rename_i h
    exact of_decide_eq_true (Bool.and_eq_true_iff.mp h).2
  · split
    · rename_i hvalue
      have hnone : (errors.kept alive api).lookup api = none := by
        rw [kept,Mapping.lookup_retain]
        simp
      rw [get,hnone,hvalue]
      rfl
    · rw [get,Mapping.lookup_set_self]
      rfl

theorem get_set_of_ne {k : ℕ} (hk : k ≠ api) (halive : alive k = true) :
    (errors.set alive api value).get k = errors.get k := by
  have hkept : (errors.kept alive api).lookup k = errors.entries.lookup k := by
    rw [kept,Mapping.lookup_retain]
    simp [hk,halive]
  unfold set
  split
  · rfl
  · split
    · rw [get,hkept,get]
    · rw [get,Mapping.lookup_set_of_ne hk,hkept,get]

theorem mem_keys_iff (errors : Errors) {k : ℕ} : k ∈ Mapping.keys errors.entries ↔ errors.get k ≠ "" := by
  rw [Mapping.mem_keys_iff,get]
  cases h : errors.entries.lookup k with
  | none => simp
  | some text =>
    obtain ⟨before,after,heq,_⟩ := List.lookup_eq_some_iff.mp h
    simpa using errors.told (k,text) (by simp [heq])

theorem alive_of_mem_kept {k : ℕ} (hk : k ∈ Mapping.keys (errors.kept alive api)) : alive k = true := by
  rw [keys_kept,List.mem_filter,Bool.and_eq_true] at hk
  exact hk.2.2

theorem alive_or_eq_of_mem_set {k : ℕ} (hk : k ∈ Mapping.keys (errors.set alive api value).entries) :
    alive k = true ∨ k = api := by
  unfold set at hk
  split at hk
  · rename_i h
    have hdead := (Bool.and_eq_true_iff.mp h).1
    simp only [hasDead,Bool.not_eq_true',List.any_eq_false] at hdead
    exact Or.inl (by simpa using hdead k hk)
  · split at hk
    · exact Or.inl (alive_of_mem_kept hk)
    · simp only [Mapping.keys_set_of_notMem (errors.notMem_kept alive api),List.mem_append,List.mem_singleton] at hk
      exact hk.imp_left alive_of_mem_kept

end Errors

variable {api : ℕ} {since e : Around} {s t : Errors} {value : String}

/-- The errors of the other APIs are still those of `s`. -/
structure Kept (api : ℕ) (since : Around) (s : Errors) (e : Around) (t : Errors) : Prop where
  later : Later since e
  other : ∀ k, k ≠ api → e.alive k = true → t.get k = s.get k

/-- The error of the API has been set to the value. -/
structure Wrote (api : ℕ) (since : Around) (s : Errors) (value : String) (e : Around) (t : Errors) : Prop
    extends Kept api since s e t where
  own : t.get api = value
  alive : ∀ k ∈ Mapping.keys t.entries, since.alive k = true

theorem Kept.refl : Kept api e s e s := ⟨fun _ h => h,fun _ _ _ => rfl⟩

theorem Kept.later_of {e' : Around} (h : Kept api since s e t) (he : Later e e') : Kept api since s e' t :=
  ⟨fun k hk => h.later k (he k hk),fun k hne hk => h.other k hne (he k hk)⟩

theorem Wrote.later_of {e' : Around} (h : Wrote api since s value e t) (he : Later e e') :
    Wrote api since s value e' t := ⟨h.toKept.later_of he,h.own,h.alive⟩

theorem Kept.wrote (h : Kept api since s e t) (hapi : since.alive api = true) (value : String) :
    Wrote api since s value e (t.set e.alive api value) where
  later := h.later
  other k hne hk := (Errors.get_set_of_ne hne hk).trans (h.other k hne hk)
  own := Errors.get_set
  alive k hk := by
    rcases Errors.alive_or_eq_of_mem_set hk with hk | rfl
    · exact h.later k hk
    · exact hapi

section Calls
variable {α β : Type} {Q : Around → Errors → Replies → Except Bool β → Prop} {w : Replies}

theorem post_look {γ : Type} {g : Errors → Around → γ} {f : γ → Call β} :
    (look g >>= f).Post Later Q e t w ↔ (f (g t e)).Post Later Q e t w := Iff.rfl

theorem post_setError {f : Unit → Call β} :
    (setError api value >>= f).Post Later Q e t w ↔ (f ()).Post Later Q e (t.set e.alive api value) w := Iff.rfl

theorem post_ask {r : Request} {f : Reply r → Call β} : (ask r >>= f).Post Later Q e t w ↔
    ∀ reply e', Later e e' → (f reply).Post Later Q e' t (w ++ [⟨r,reply⟩]) := Iff.rfl

/-- How `connect` ends that began with the replies `w` -/
inductive Connects (api : ℕ) (since : Around) (s : Errors) (quiet : Bool) (now : Around) (t₀ : Errors) (w : Replies) :
    Around → Errors → Replies → Except Bool Bool → Prop
  | closed {t : Errors} : now.closed api = true → Wrote api since s errUnknown now t →
      Connects api since s quiet now t₀ w now t w (.ok false)
  | already {t : Errors} : now.connected api = true → Wrote api since s "" now t →
      Connects api since s quiet now t₀ w now t w (.ok true)
  | made {e : Around} {t : Errors} : Wrote api since s "" e t →
      Connects api since s quiet now t₀ w e t (w ++ [⟨.connect quiet,.ok ()⟩]) (.ok true)
  | failed {e : Around} {t : Errors} {f : Failure} : Wrote api since s (f.classified false) e t →
      Connects api since s quiet now t₀ w e t (w ++ [⟨.connect quiet,.error f⟩]) (.ok false)
  | raised {e : Around} {b : Bool} : Kept api since s e t₀ →
      Connects api since s quiet now t₀ w e t₀ (w ++ [⟨.connect quiet,.error (.raised b)⟩]) (.error b)

theorem post_connect (h : Kept api since s e t) (hapi : since.alive api = true) (quiet : Bool) :
    (connect api quiet).Post Later (Connects api since s quiet e t w) e t w := by
  unfold connect
  rw [post_look]
  split
  · rename_i hclosed
    exact .closed hclosed (h.wrote hapi _)
  · rw [post_look]
    split
    · rename_i hconnected
      exact .already hconnected (h.wrote hapi _)
    · rw [post_ask]
      rintro (f | _) e' he
      · cases f with
        | raised b => exact .raised (h.later_of he)
        | callError reason text errname => exact .failed ((h.later_of he).wrote hapi _)
        | clientError error isConnectionError => exact .failed ((h.later_of he).wrote hapi _)
      · exact .made ((h.later_of he).wrote hapi _)

/-- The calls that need a connection begin by making one, and clear the error once there is one. -/
theorem post_begin {p q : Call β} (h : Kept api since s e t) (hapi : since.alive api = true)
    (hp : ∀ e t w, Wrote api since s "" e t → p.Post Later Q e t w)
    (hclosed : ∀ t, e.connected api = false → e.closed api = true → Wrote api since s errUnknown e t →
      q.Post Later Q e t w)
    (hfailed : ∀ e' t f, e.connected api = false → Wrote api since s (f.classified false) e' t →
      q.Post Later Q e' t (w ++ [⟨.connect false,.error f⟩]))
    (hraised : ∀ e' b, e.connected api = false → Kept api since s e' t →
      Q e' t (w ++ [⟨.connect false,.error (.raised b)⟩]) (.error b)) :
    (connectedOrConnect api >>= fun b => if b = true then setError api "" >>= fun _ => p else q).Post
      Later Q e t w := by
  rw [Coroutine.post_bind,connectedOrConnect,connected,post_look]
  split
  · exact hp _ _ _ (h.wrote hapi _)
  · rename_i hconnected
    have hoff := Bool.eq_false_iff.mpr hconnected
    apply (post_connect h hapi false).mono
    rintro e' t' w' x hend
    cases hend with
    | closed hc hw => exact hclosed _ hoff hc hw
    | already _ hw => exact hp _ _ _ (hw.toKept.wrote hapi _)
    | made hw => exact hp _ _ _ (hw.toKept.wrote hapi _)
    | failed hw => exact hfailed _ _ _ hoff hw
    | raised hk => exact hraised _ _ hoff hk

/-- How `_query` ends that began with the replies `w` -/
inductive Queries (api : ℕ) (since : Around) (s : Errors) (service : String) (params : Value) (job : Bool)
    (now : Around) (t₀ : Errors) (w : Replies) : Around → Errors → Replies → Except Bool CallResult → Prop
  | closed {t : Errors} : now.connected api = false → now.closed api = true → Wrote api since s errUnknown now t →
      Queries api since s service params job now t₀ w now t w (.ok ⟨.none,errUnknown,""⟩)
  | notConnected {e : Around} {t : Errors} {f : Failure} : now.connected api = false →
      Wrote api since s (f.classified false) e t →
      Queries api since s service params job now t₀ w e t (w ++ [⟨.connect false,.error f⟩])
        (.ok ⟨.none,f.classified false,""⟩)
  | connectRaised {e : Around} {b : Bool} : now.connected api = false → Kept api since s e t₀ →
      Queries api since s service params job now t₀ w e t₀ (w ++ [⟨.connect false,.error (.raised b)⟩]) (.error b)
  | answered {e : Around} {t : Errors} {w' : Replies} {data : Value} : Wrote api since s "" e t →
      Queries api since s service params job now t₀ w e t (w' ++ [⟨.call service params job,.ok data⟩])
        (.ok ⟨data,"",""⟩)
  | failed {e : Around} {t : Errors} {w' : Replies} {f : Failure} : Wrote api since s f.text e t →
      Queries api since s service params job now t₀ w e t (w' ++ [⟨.call service params job,.error f⟩])
        (.ok ⟨.none,f.text,f.errname⟩)
  | raised {e : Around} {t : Errors} {w' : Replies} {b : Bool} : Wrote api since s "" e t →
      Queries api since s service params job now t₀ w e t (w' ++ [⟨.call service params job,.error (.raised b)⟩])
        (.error b)

theorem post_query (h : Kept api since s e t) (hapi : since.alive api = true) (service : String) (params : Value)
    (job : Bool) :
    (query api service params job).Post Later (Queries api since s service params job e t w) e t w := by
  unfold query
  apply post_begin h hapi
  · intro e' t' w' hw
    rw [post_ask]
    rintro (f | data) e'' he
    · have hw' := hw.later_of he
      cases f with
      | raised b => exact .raised hw'
      | callError reason text errname =>
        have hset := hw'.toKept.wrote hapi (callErrorText reason text)
        rw [post_setError,error,post_look,hset.own]
        exact .failed (f := .callError reason text errname) hset
      | clientError error' isConnectionError =>
        have hset := hw'.toKept.wrote hapi ((Failure.clientError error' isConnectionError).classified true)
        rw [post_setError,error,post_look,hset.own]
        exact .failed (f := .clientError error' isConnectionError) hset
    · exact .answered (hw.later_of he)
  · intro t' hoff hc hw
    rw [error,post_look,hw.own]
    exact .closed hoff hc hw
  · intro e' t' f hoff hw
    rw [error,post_look,hw.own]
    exact .notConnected hoff hw
  · exact fun e' b hc hk => .connectRaised hc hk

/-- What holds at the end of a call that began in `since` with the errors `s` -/
structure Ends (api : ℕ) (m : Method) (since : Around) (s : Errors) (e : Around) (t : Errors) (w : Replies)
    (x : Except Bool Method.Result) : Prop where
  own : t.get api = outcome m w x (s.get api)
  other : ∀ k, k ≠ api → e.alive k = true → t.get k = s.get k
  alive : m.bestEffort = false → (∃ r, x = .ok r) → ∀ k ∈ Mapping.keys t.entries, since.alive k = true
  tells : ∀ r, x = .ok r → Tells api since e w m r

variable {m : Method} {r : Method.Result}

theorem failure_concat {q : Request} {x : Reply q} (hq : (∀ quiet, q ≠ .connect quiet) ∨ ∃ f, x = .error f) :
    failure m (w ++ [⟨q,x⟩]) r = failureOf m ⟨q,x⟩ := by
  unfold failure
  rw [List.getLast?_append,List.getLast?_singleton,Option.some_or]
  cases q with
  | connect quiet =>
    obtain ⟨f,rfl⟩ := hq.resolve_left (fun h => h quiet rfl)
    rfl
  | call | subscribe | unsubscribe | getSubscriptionEvents | isSubscribed => rfl

theorem failure_error {q : Request} {f : Failure} : failure m (w ++ [⟨q,.error f⟩]) r = failureOf m ⟨q,.error f⟩ :=
  failure_concat (Or.inr ⟨f,rfl⟩)

theorem outcome_cut {q : Request} {x : Reply q} {b : Bool} {before : String} (hm : m.bestEffort = false)
    (hq : w ≠ [] ∨ ∀ quiet, q ≠ .connect quiet) : outcome m (w ++ [⟨q,x⟩]) (.error b) before = "" := by
  unfold outcome
  simp only [hm,Bool.false_eq_true,if_false]
  cases w with
  | nil =>
    have hq := hq.resolve_left (fun h => h rfl)
    cases q with
    | connect quiet => exact absurd rfl (hq quiet)
    | call | subscribe | unsubscribe | getSubscriptionEvents | isSubscribed => rfl
  | cons y w =>
    obtain ⟨y,reply⟩ := y
    cases w with
    | nil => cases y <;> rfl
    | cons z w => cases y <;> rfl

theorem Wrote.ends (h : Wrote api since s value e t) (hvalue : value = outcome m w (.ok r) (s.get api))
    (htells : Tells api since e w m r) : Ends api m since s e t w (.ok r) where
  own := h.own.trans hvalue
  other := h.other
  alive _ _ := h.alive
  tells r' hr := by
    cases hr
    exact htells

theorem Wrote.ends_failed (h : Wrote api since s value e t) (hfailure : failure m w r = some value)
    (htells : Tells api since e w m r) : Ends api m since s e t w (.ok r) := by
  apply h.ends _ htells
  rw [outcome,hfailure]
  rfl

theorem Wrote.ends_ok (h : Wrote api since s "" e t) (hfailure : failure m w r = none) (hm : m.bestEffort = false)
    (htells : Tells api since e w m r) : Ends api m since s e t w (.ok r) :=
  h.ends (by simp [outcome,hfailure,hm]) htells

theorem Wrote.ends_cut (h : Wrote api since s "" e t) {q : Request} {x : Reply q} {b : Bool}
    (hm : m.bestEffort = false) (hq : w ≠ [] ∨ ∀ quiet, q ≠ .connect quiet) :
    Ends api m since s e t (w ++ [⟨q,x⟩]) (.error b) where
  own := h.own.trans (outcome_cut hm hq).symm
  other := h.other
  alive := fun _ ⟨_,hr⟩ => by cases hr
  tells r hr := by cases hr

theorem Kept.ends (h : Kept api since s e t) (hm : m.bestEffort = true)
    (hown : t.get api = outcome m w (.ok r) (s.get api)) (htells : Tells api since e w m r) :
    Ends api m since s e t w (.ok r) where
  own := hown
  other := h.other
  alive hm' _ := by simp [hm] at hm'
  tells r' hr := by
    cases hr
    exact htells

theorem Kept.ends_cut (h : Kept api since s e t) {b : Bool} (hown : t.get api = outcome m w (.error b) (s.get api)) :
    Ends api m since s e t w (.error b) where
  own := hown
  other := h.other
  alive := fun _ ⟨_,hr⟩ => by cases hr
  tells r hr := by cases hr

theorem ends_connect (hapi : since.alive api = true) (quiet : Bool) :
    ((Method.connect quiet).body api).Post Later (Ends api (.connect quiet) since s) since s [] := by
  unfold Method.body
  rw [Coroutine.post_map]
  apply (post_connect Kept.refl hapi quiet).mono
  rintro e t w x hend
  cases hend with
  | closed hc h => exact h.ends_failed rfl (.notConnected (Or.inl ⟨rfl,hc⟩))
  | already hc h => exact h.ends_ok rfl rfl (.connected (Or.inl ⟨rfl,hc⟩))
  | made h => exact h.ends_ok rfl rfl (.connected (Or.inr rfl))
  | failed h => exact h.ends_failed rfl (.notConnected (Or.inr ⟨_,rfl⟩))
  | raised h => exact h.ends_cut rfl

theorem ends_query (hapi : since.alive api = true) (service : String) (params : Value) (job : Bool) :
    ((Method.query service params job).body api).Post Later (Ends api (.query service params job) since s) since s [] := by
  unfold Method.body
  rw [Coroutine.post_map]
  apply (post_query Kept.refl hapi service params job).mono
  rintro e t w x hend
  cases hend with
  | closed _ hc h => exact h.ends_failed rfl (.unsent (Or.inl ⟨rfl,hc⟩) rfl)
  | notConnected _ h => exact h.ends_failed rfl (.unsent (Or.inr ⟨_,rfl⟩) rfl)
  | connectRaised _ h => exact h.ends_cut rfl
  | @answered e t w' data h =>
    have hnone : failureOf (.query service params job) ⟨.call service params job,.ok data⟩ = none := rfl
    exact h.ends_ok ((failure_concat (Or.inl (fun _ hq => by cases hq))).trans hnone) rfl (.answered (by simp))
  | @failed e t w' f h =>
    have hf : failureOf (.query service params job) ⟨.call service params job,.error f⟩ = some f.text := by
      cases f <;> rfl
    exact h.ends_failed (failure_error.trans hf) (.notAnswered (by simp))
  | raised h => exact h.ends_cut rfl (Or.inr (fun _ hq => by cases hq))

theorem classifyException_ne_empty (duringCall : Bool) (error : ErrorClass) : classifyException duringCall error ≠ "" := by
  cases error <;> cases duringCall <;> decide

theorem callErrorText_ne_empty (reason text : String) : callErrorText reason text ≠ "" := by
  unfold callErrorText
  split
  · assumption
  · split
    · assumption
    · decide

theorem Failure.classified_ne_empty (duringCall : Bool) (f : Failure) : f.classified duringCall ≠ "" := by
  cases f with
  | clientError error _ => exact classifyException_ne_empty duringCall error
  | callError | raised => exact (by decide : errUnknown ≠ "")

theorem Failure.text_ne_empty (f : Failure) : f.text ≠ "" := by
  cases f with
  | callError reason text _ => exact callErrorText_ne_empty reason text
  | clientError error b => exact Failure.classified_ne_empty true (.clientError error b)
  | raised b => exact Failure.classified_ne_empty true (.raised b)

/-- The rest of `connection_test` behind its query -/
def judge (api : ℕ) (r : CallResult) : Call (Bool × String) := do
  if hasHostname r.data then
    return (true,"")
  else
    let error' := if r.errname = "EACCES" then errPermissionDenied else r.error
    setError api (if error' ≠ "" then error' else errMalformedResult)
    return (false,← error api)

theorem connectionTest_eq (api : ℕ) : connectionTest api = connect api false >>= fun b =>
    if b = true then query api "system.info" .none false >>= judge api
    else connected api >>= fun b => error api >>= fun text => pure (b,text) := rfl

theorem post_judge_of_not {Q : Around → Errors → Replies → Except Bool (Bool × String) → Prop} {r : CallResult}
    (h : Kept api since s e t) (hapi : since.alive api = true) (hdata : hasHostname r.data = false) {text : String}
    (htext : (if r.errname = "EACCES" then errPermissionDenied else
      if r.error ≠ "" then r.error else errMalformedResult) = text)
    (hQ : ∀ t, Wrote api since s text e t → Q e t w (.ok (false,text))) : (judge api r).Post Later Q e t w := by
  have hset : (if (if r.errname = "EACCES" then errPermissionDenied else r.error) ≠ "" then
      (if r.errname = "EACCES" then errPermissionDenied else r.error) else errMalformedResult) = text := by
    rw [← htext]
    by_cases he : r.errname = "EACCES"
    · simp [he,errPermissionDenied]
    · simp [he]
  unfold judge
  rw [if_neg (by simp [hdata]),post_setError,error,post_look,Errors.get_set,hset]
  exact hQ _ (h.wrote hapi text)

/-- The failure that `connection_test` tells for that of its query -/
theorem failureOf_connectionTest (service : String) (params : Value) (job : Bool) (f : Failure) :
    failureOf .connectionTest ⟨.call service params job,.error f⟩ =
      some (if f.errname = "EACCES" then errPermissionDenied else f.text) := by
  cases f with
  | callError reason text errname => rfl
  | clientError | raised => rfl

theorem ends_tested (hapi : since.alive api = true) (h : Wrote api since s "" e t)
    (hw : w = [] ∧ e.connected api = true ∨ w = [⟨.connect false,.ok ()⟩]) :
    (query api "system.info" .none false >>= judge api).Post Later
      (fun e t w x => Ends api .connectionTest since s e t w (x.map (fun r => .tested r.1 r.2))) e t w := by
  have hmade : e.connected api = false → w = [⟨.connect false,.ok ()⟩] := by
    intro hoff
    rcases hw with ⟨-,hon⟩ | rfl
    · simp [hon] at hoff
    · rfl
  rw [Coroutine.post_bind]
  apply (post_query h.toKept hapi "system.info" .none false).mono
  rintro e' t' w' x hend
  cases hend with
  | closed hoff hc h' =>
    obtain rfl := hmade hoff
    apply post_judge_of_not h'.toKept hapi rfl rfl
    exact fun t'' hset => hset.ends_failed rfl (.lost rfl (Or.inl ⟨rfl,hc⟩) rfl)
  | @notConnected e' t' f hoff h' =>
    obtain rfl := hmade hoff
    have hf : failure .connectionTest [⟨.connect false,.ok ()⟩,⟨.connect false,.error f⟩]
        (.tested false (f.classified false)) = some (f.classified false) := rfl
    apply post_judge_of_not h'.toKept hapi rfl (if_neg (by simp) |>.trans (if_pos (f.classified_ne_empty false)))
    exact fun t'' hset => hset.ends_failed hf (.lost rfl (Or.inr ⟨f,rfl⟩) hf)
  | connectRaised hoff h' =>
    obtain rfl := hmade hoff
    exact Wrote.ends_cut ⟨h',h.own,fun k hk => h.alive k hk⟩ rfl (Or.inl (List.cons_ne_nil _ _))
  | @answered e' t' w' data h' =>
    have hask : ∀ r, failure .connectionTest (w' ++ [⟨.call "system.info" .none false,.ok data⟩]) r =
        if hasHostname data then none else some errMalformedResult :=
      fun r => failure_concat (Or.inl (fun _ hq => by cases hq))
    by_cases hdata : hasHostname data = true
    · have hnone := (hask (.tested true "")).trans (if_pos hdata)
      change (judge api ⟨data,"",""⟩).Post Later _ e' t' _
      unfold judge
      rw [if_pos hdata]
      exact h'.ends_ok hnone rfl (.tested (by simp) hdata)
    · have hsome := (hask (.tested false errMalformedResult)).trans (if_neg hdata)
      apply post_judge_of_not h'.toKept hapi (Bool.eq_false_iff.mpr hdata) rfl
      exact fun t'' hset => hset.ends_failed hsome (.notTested List.getLast?_concat hsome)
  | @failed e' t' w' f h' =>
    have hf : ∀ text, (if f.errname = "EACCES" then errPermissionDenied else f.text) = text →
        failure .connectionTest (w' ++ [⟨.call "system.info" .none false,.error f⟩]) (.tested false text) = some text := by
      rintro text rfl
      rw [failure_error,failureOf_connectionTest]
    apply post_judge_of_not h'.toKept hapi rfl (by rw [if_pos f.text_ne_empty])
    exact fun t'' hset => hset.ends_failed (hf _ rfl) (.notTested List.getLast?_concat (hf _ rfl))
  | raised h' => exact h'.ends_cut rfl (Or.inr (fun _ hq => by cases hq))

/-- The connection test without a connection tells the error of `connect`. -/
theorem ends_untested (h : Wrote api since s value e t) (hrefused : Refused api false since w)
    (hfailure : failure .connectionTest w (.tested (e.connected api) value) = some value) :
    (connected api >>= fun b => error api >>= fun text => pure (b,text)).Post Later
      (fun e t w x => Ends api .connectionTest since s e t w (x.map (fun r => .tested r.1 r.2))) e t w := by
  rw [connected,post_look,error,post_look,h.own]
  exact h.ends_failed hfailure (.untested hrefused hfailure)

theorem ends_connectionTest (hapi : since.alive api = true) :
    (Method.connectionTest.body api).Post Later (Ends api .connectionTest since s) since s [] := by
  unfold Method.body
  rw [Coroutine.post_map,connectionTest_eq,Coroutine.post_bind]
  apply (post_connect Kept.refl hapi false).mono
  rintro e t w x hend
  cases hend with
  | closed hc h => exact ends_untested h (Or.inl ⟨rfl,hc⟩) rfl
  | already hc h => exact ends_tested hapi h (Or.inl ⟨rfl,hc⟩)
  | made h => exact ends_tested hapi h (Or.inr rfl)
  | failed h => exact ends_untested h (Or.inr ⟨_,rfl⟩) rfl
  | raised h => exact h.ends_cut rfl

theorem ends_subscribeEvents (hapi : since.alive api = true) (event : String) :
    ((Method.subscribeEvents event).body api).Post Later (Ends api (.subscribeEvents event) since s) since s [] := by
  -- without a connection the error of `connect` is set once more
  have hnot : ∀ {e t w text}, Wrote api since s text e t → text ≠ "" → Refused api false since w →
      failure (.subscribeEvents event) w (.subscription none) = some text →
      (error api >>= fun before => setError api (if before ≠ "" then before else errConnectionRefused) >>= fun _ =>
        pure none : Call (Option (String × ℕ))).Post Later
        (fun e t w x => Ends api (.subscribeEvents event) since s e t w (x.map Method.Result.subscription)) e t w := by
    intro e t w text h htext hrefused hfailure
    rw [error,post_look,post_setError,h.own,if_pos htext]
    exact (h.toKept.wrote hapi text).ends_failed hfailure (.noSubscription (Or.inl hrefused))
  unfold Method.body
  rw [Coroutine.post_map]
  unfold subscribeEvents
  apply post_begin Kept.refl hapi
  · intro e t w h
    rw [post_ask]
    rintro (f | subscription) e' he
    · cases f with
      | raised b => exact (h.later_of he).ends_cut rfl (Or.inr (fun _ hq => by cases hq))
      | callError | clientError =>
        exact ((h.later_of he).toKept.wrote hapi _).ends_failed (failure_error.trans rfl)
          (.noSubscription (Or.inr ⟨_,List.getLast?_concat⟩))
    · have hnone : failure (.subscribeEvents event) (w ++ [⟨.subscribe event,.ok subscription⟩])
          (.subscription (some subscription)) = none := failure_concat (Or.inl (fun _ hq => by cases hq))
      exact (h.later_of he).ends_ok hnone rfl (.subscription (by simp))
  · exact fun t _ hc h => hnot h (by decide) (Or.inl ⟨rfl,hc⟩) rfl
  · exact fun e t f _ h => hnot h (f.classified_ne_empty false) (Or.inr ⟨f,rfl⟩) rfl
  · exact fun e b _ h => h.ends_cut rfl

theorem ends_unsubscribeEvents (hapi : since.alive api = true) (subscriptionId : String) :
    ((Method.unsubscribeEvents subscriptionId).body api).Post Later
      (Ends api (.unsubscribeEvents subscriptionId) since s) since s [] := by
  unfold Method.body
  rw [Coroutine.post_map]
  unfold unsubscribeEvents
  rw [connected,post_look]
  split
  · rw [post_ask]
    rintro (f | _) e he
    · have h : Kept api since s e s := Kept.refl.later_of he
      cases f with
      | raised b => exact h.ends_cut rfl
      | callError => exact h.ends rfl rfl .unsubscribed
      | clientError error b =>
        exact (h.wrote hapi _).ends_failed rfl .unsubscribed
    · exact (Kept.refl.later_of he).ends rfl rfl .unsubscribed
  · exact Kept.refl.ends rfl rfl .unsubscribed

theorem ends_isSubscribed (hapi : since.alive api = true) (subscriptionId : String) :
    ((Method.isSubscribed subscriptionId).body api).Post Later
      (Ends api (.isSubscribed subscriptionId) since s) since s [] := by
  unfold Method.body
  rw [Coroutine.post_map]
  unfold isSubscribed
  rw [connected,post_look]
  split
  · rw [post_ask]
    rintro (f | b) e he
    · have h : Kept api since s e s := Kept.refl.later_of he
      cases f with
      | raised b => exact h.ends_cut rfl
      | callError | clientError =>
        exact (h.wrote hapi _).ends_failed rfl (.notSubscribed (Or.inr ⟨_,rfl⟩))
    · have hnone : failureOf (.isSubscribed subscriptionId) ⟨.isSubscribed subscriptionId,.ok b⟩ = none := by
        cases b <;> rfl
      refine (Kept.refl.later_of he).ends rfl ?_ (.subscribed rfl)
      rw [outcome,failure_concat (Or.inl (fun _ hq => by cases hq)),hnone]
      rfl
  · rename_i hoff
    exact Kept.refl.ends rfl rfl (.notSubscribed (Or.inl ⟨rfl,Bool.eq_false_iff.mpr hoff⟩))

theorem ends_unreadable (hapi : since.alive api = true) {subscriptionId : String} {eventTimeout : Option ℚ}
    (h : Wrote api since s "" e t) {q : Request} (f : Failure)
    (hq : q = .getSubscriptionEvents subscriptionId eventTimeout ∨ q = .isSubscribed subscriptionId)
    (hf : failureOf (.getSubscriptionEvents subscriptionId eventTimeout) ⟨q,.error f⟩ = some f.text) :
    (unreadable api f).Post Later
      (fun e t w x => Ends api (.getSubscriptionEvents subscriptionId eventTimeout) since s e t w
        (x.map (fun r => .events r.1 r.2.1 r.2.2))) e t (w ++ [⟨q,.error f⟩]) := by
  have hlost : lostConnection (w ++ [⟨q,.error f⟩]) = f.isConnectionError := by
    unfold lostConnection
    rw [List.getLast?_append,List.getLast?_singleton,Option.some_or]
    rcases hq with rfl | rfl <;> rfl
  have hset : (setError api f.text >>= fun _ => error api >>= fun text =>
      pure (([] : List Value),text,f.isConnectionError)).Post Later
      (fun e t w x => Ends api (.getSubscriptionEvents subscriptionId eventTimeout) since s e t w
        (x.map (fun r => .events r.1 r.2.1 r.2.2))) e t (w ++ [⟨q,.error f⟩]) := by
    have hsome := (failure_error (w := w) (r := .events [] f.text f.isConnectionError)).trans hf
    rw [post_setError,error,post_look,Errors.get_set]
    refine (h.toKept.wrote hapi f.text).ends_failed hsome (.unread (Or.inr ?_) hlost hsome)
    rcases hq with rfl | rfl
    · exact Or.inl ⟨f,List.getLast?_concat⟩
    · exact Or.inr ⟨.error f,List.getLast?_concat⟩
  cases f with
  | raised b => exact h.ends_cut rfl (Or.inr (by rcases hq with rfl | rfl <;> simp))
  | callError | clientError => exact hset

theorem ends_getSubscriptionEvents (hapi : since.alive api = true) (subscriptionId : String)
    (eventTimeout : Option ℚ) :
    ((Method.getSubscriptionEvents subscriptionId eventTimeout).body api).Post Later
      (Ends api (.getSubscriptionEvents subscriptionId eventTimeout) since s) since s [] := by
  have hnot : ∀ {e t w text}, Wrote api since s text e t → text ≠ "" → Refused api false since w →
      lostConnection w = true →
      (∀ b, failure (.getSubscriptionEvents subscriptionId eventTimeout) w (.events [] text b) = some text) →
      (error api >>= fun before => setError api (if before ≠ "" then before else errConnectionRefused) >>= fun _ =>
        pure (([] : List Value),if before ≠ "" then before else errConnectionRefused,true)).Post Later
        (fun e t w x => Ends api (.getSubscriptionEvents subscriptionId eventTimeout) since s e t w
          (x.map (fun r => .events r.1 r.2.1 r.2.2))) e t w := by
    intro e t w text h htext hrefused hlost hfailure
    rw [error,post_look,post_setError,h.own,if_pos htext]
    exact (h.toKept.wrote hapi text).ends_failed (hfailure true) (.unread (Or.inl hrefused) hlost (hfailure true))
  unfold Method.body
  rw [Coroutine.post_map]
  unfold getSubscriptionEvents
  apply post_begin Kept.refl hapi
  · intro e t w h
    rw [post_ask]
    rintro (f | events) e' he
    · exact ends_unreadable hapi (h.later_of he) f (Or.inl rfl) (by cases f <;> rfl)
    · have h' := h.later_of he
      dsimp only
      split
      · rw [post_ask]
        rintro (f | b) e'' he'
        · exact ends_unreadable hapi (h'.later_of he') f (Or.inr rfl) (by cases f <;> rfl)
        · have hask : ∀ r, failure (.getSubscriptionEvents subscriptionId eventTimeout)
              ((w ++ [⟨.getSubscriptionEvents subscriptionId eventTimeout,.ok events⟩]) ++
                [⟨.isSubscribed subscriptionId,.ok b⟩]) r =
              failureOf (.getSubscriptionEvents subscriptionId eventTimeout) ⟨.isSubscribed subscriptionId,.ok b⟩ :=
            fun r => failure_concat (Or.inl (fun _ hq => by cases hq))
          cases b with
          | true => exact (h'.later_of he').ends_ok (hask _) rfl (.nothingNew (by simp))
          | false =>
            have hsome := hask (.events [] errLostQuery true)
            have hlost : lostConnection ((w ++ [⟨.getSubscriptionEvents subscriptionId eventTimeout,.ok events⟩]) ++
                [⟨.isSubscribed subscriptionId,.ok false⟩]) = true := by
              unfold lostConnection
              rw [List.getLast?_append,List.getLast?_singleton,Option.some_or]
            dsimp only
            rw [post_setError,error,post_look,Errors.get_set]
            exact ((h'.later_of he').toKept.wrote hapi errLostQuery).ends_failed hsome
              (.unread (Or.inr (Or.inr ⟨.ok false,List.getLast?_concat⟩)) hlost hsome)
      · rename_i hevents
        have hnone : failure (.getSubscriptionEvents subscriptionId eventTimeout)
            (w ++ [⟨.getSubscriptionEvents subscriptionId eventTimeout,.ok events⟩]) (.events events "" false) = none :=
          failure_concat (Or.inl (fun _ hq => by cases hq))
        have hne : events ≠ [] := fun hnil => hevents (by simp [hnil])
        exact h'.ends_ok hnone rfl (.events (by simp) hne)
  · exact fun t _ hc h => hnot h (by decide) (Or.inl ⟨rfl,hc⟩) rfl (fun _ => rfl)
  · exact fun e t f _ h => hnot h (f.classified_ne_empty false) (Or.inr ⟨f,rfl⟩) rfl (fun _ => rfl)
  · exact fun e b _ h => h.ends_cut rfl

theorem ends_body (hapi : since.alive api = true) (m : Method) :
    (m.body api).Post Later (Ends api m since s) since s [] := by
  cases m with
  | connect quiet => exact ends_connect hapi quiet
  | connectionTest => exact ends_connectionTest hapi
  | query service params job => exact ends_query hapi service params job
  | subscribeEvents event => exact ends_subscribeEvents hapi event
  | unsubscribeEvents subscriptionId => exact ends_unsubscribeEvents hapi subscriptionId
  | getSubscriptionEvents subscriptionId eventTimeout => exact ends_getSubscriptionEvents hapi subscriptionId eventTimeout
  | isSubscribed subscriptionId => exact ends_isSubscribed hapi subscriptionId

end Calls

/-- What happens around the tasks -/
inductive Happening
  /-- The last reference to the API is gone. -/
  | died (api : ℕ)
  /-- The client of the API connects or loses its connection. -/
  | connection (api : ℕ) (connected : Bool)
  | closed (api : ℕ)

def Happening.effect : Happening → Around → Around
  | .died api, e => { e with alive := Function.update e.alive api false }
  | .connection api b, e => { e with connected := Function.update e.connected api b }
  | .closed api, e => { e with closed := Function.update e.closed api true }

def Happening.preventedBy (api : ℕ) : Happening → Bool
  | .died api' => api' = api
  | _ => false

/-- The tasks of Home Assistant with the APIs that they share -/
def calls : Calls Errors Around Reply Bool Method.Result (ℕ × Method) Happening where
  body := fun (api,m) => m.body api
  empty := .empty
  around := ⟨fun _ => true,fun _ => false,fun _ => false⟩
  effect := Happening.effect
  allowed := fun (api,_) e => e.alive api
  prevents := fun (api,_) d => d.preventedBy api

theorem relied : calls.Relied Later where
  refl _ _ h := h
  trans _ _ _ h h' k hk := h k (h' k hk)
  effect d e k hk := by
    cases d with
    | died api =>
      by_cases h : k = api
      · simp [calls,Happening.effect,h] at hk
      · simpa [calls,Happening.effect,Function.update_of_ne h] using hk
    | connection api b => exact hk
    | closed api => exact hk

def errorAfter (api : ℕ) (c : ℕ × Method) (w : Replies) (x : Except Bool Method.Result) (before : String) : String :=
  if c.1 = api then outcome c.2 w x before else before

/-- `api.error`, as the calls of the task itself have left it -/
def lastError (api : ℕ) (log : List (Entry Errors Around Reply Bool Method.Result (ℕ × Method) Happening)) (n : ℕ) :
    String := calls.expected (fun errors => errors.get api) (errorAfter api) log n

abbrev SharedApis := Tasks Errors Around Reply Bool Method.Result (ℕ × Method) Happening

/-- Between its calls a task reads the outcome of its own last call of a live API, or what its creator read. -/
theorem error_eq_lastError {S : SharedApis} (hr : calls.system.Reachable S) {n : ℕ}
    {t : Task Errors Around Reply Bool Method.Result (ℕ × Method)} (ht : S.table.get n = some t)
    (hidle : t.running = none) {api : ℕ} (halive : S.around.alive api = true) :
    t.own.get api = lastError api S.log n := by
  have hpost : ∀ c s e, calls.allowed c e = true → (calls.body c).Post Later
      (fun e' own w x => e'.alive api = true → own.get api = errorAfter api c w x (s.get api)) e s [] := by
    rintro ⟨api',m⟩ s e hallowed
    apply (ends_body hallowed m).mono
    rintro e' own w x hend halive'
    unfold errorAfter
    split
    · rename_i heq
      cases heq
      exact hend.own
    · rename_i hne
      exact hend.other api (Ne.symm hne) halive'
  have hobs := Calls.observed_eq_expected relied (fun h he => h api he) hpost hr halive ht
  rw [Calls.settled,hidle] at hobs
  exact hobs

/-- Every request is answered, but a call of a method fails if there is a reason. -/
def replies (reason : String) : ∀ r, Reply r
  | .connect _ => .ok ()
  | .call _ _ _ => if reason = "" then .ok .none else .error (.callError reason "" "")
  | .subscribe _ => .ok ("",0)
  | .unsubscribe _ => .ok ()
  | .getSubscriptionEvents _ _ => .ok []
  | .isSubscribed _ => .ok true

/-- Two tasks query one API at the same time; the first query fails after the second was answered. -/
def overlapping : List (Calls.Event Reply (ℕ × Method) Happening) :=
  [.create none,.create none,.change (.connection 0 true),.call 0 (0,.query "pool.query" .none false),
    .call 1 (0,.query "app.query" .none false),.reply 1 (replies ""),.reply 0 (replies "EINVAL")]

theorem run_overlapping : ∃ S t u, calls.system.run (fun _ _ => True) { around := calls.around } overlapping = some S ∧
    S.table.get 0 = some t ∧ t.running = none ∧ t.own.get 0 = "EINVAL" ∧
    S.table.get 1 = some u ∧ u.running = none ∧ u.own.get 0 = "" ∧ S.around.alive 0 = true ∧
    ∃ since log, S.log = .finished 0 (0,.query "pool.query" .none false) since
      [⟨.call "pool.query" .none false,.error (.callError "EINVAL" "" "")⟩]
      (.ok (.answered ⟨.none,"EINVAL",""⟩)) :: log :=
  ⟨_,_,_,rfl,rfl,rfl,rfl,rfl,rfl,rfl,rfl,_,_,rfl⟩

/-- The task whose query was answered does not see the error of the other one. -/
theorem error_of_overlapping : ∃ S t u, calls.system.Reachable S ∧ S.table.get 0 = some t ∧ S.table.get 1 = some u ∧
    lastError 0 S.log 0 = "EINVAL" ∧ lastError 0 S.log 1 = "" ∧ t.own.get 0 = "EINVAL" ∧ u.own.get 0 = "" := by
  obtain ⟨S,t,u,hrun,ht,hidle,herror,hu,hidle',herror',halive,-⟩ := run_overlapping
  have hr : calls.system.Reachable S := (System.Reach.init rfl).run hrun
  exact ⟨S,t,u,hr,ht,hu,(error_eq_lastError hr ht hidle halive).symm.trans herror,
    (error_eq_lastError hr hu hidle' halive).symm.trans herror',herror,herror'⟩

/-- A call that sets the error leaves entries of APIs only that were alive when it began, one for each error that its
task would read. -/
theorem entries_of_finished {S : SharedApis} (hr : calls.system.Reachable S) {n api : ℕ} {m : Method} {since : Around}
    {w : Replies} {r : Method.Result} {log : List _} (hlog : S.log = .finished n (api,m) since w (.ok r) :: log)
    (hm : m.bestEffort = false) : ∃ own, S.table.get n = some { own := own } ∧
      (∀ k ∈ Mapping.keys own.entries, since.alive k = true) ∧
      ∀ k, S.around.alive k = true → (k ∈ Mapping.keys own.entries ↔ lastError k S.log n ≠ "") := by
  have hpost : ∀ c s e, calls.allowed c e = true → (calls.body c).Post Later
      (fun _ own _ x => c.2.bestEffort = false → (∃ r, x = .ok r) →
        ∀ k ∈ Mapping.keys own.entries, e.alive k = true) e s [] :=
    fun c s e hallowed => (ends_body hallowed c.2).mono (fun _ _ _ _ h => h.alive)
  obtain ⟨own,hget,hend⟩ := Calls.post_of_finished (Q := fun c since _ own _ x => c.2.bestEffort = false →
    (∃ r, x = .ok r) → ∀ k ∈ Mapping.keys own.entries, since.alive k = true) relied hpost hr hlog
  refine ⟨own,hget,hend hm ⟨r,rfl⟩,fun k hk => ?_⟩
  rw [← error_eq_lastError hr hget rfl hk,own.mem_keys_iff]

theorem entries_of_overlapping : ∃ S own, calls.system.Reachable S ∧ S.table.get 0 = some { own := own } ∧
    (0 ∈ Mapping.keys own.entries ↔ lastError 0 S.log 0 ≠ "") := by
  obtain ⟨S,t,u,hrun,-,-,-,-,-,-,halive,since,log,hlog⟩ := run_overlapping
  have hr : calls.system.Reachable S := (System.Reach.init rfl).run hrun
  obtain ⟨own,hget,-,hkeys⟩ := entries_of_finished hr hlog rfl
  exact ⟨S,own,hr,hget,hkeys 0 halive⟩

theorem failureOf_ne_empty {m : Method} {last : Σ r, Reply r} {text : String} (h : failureOf m last = some text) :
    text ≠ "" := by
  unfold failureOf at h
  split at h
  · exact Option.some.inj h ▸ Failure.classified_ne_empty _ _
  · cases h
  · exact Option.some.inj h ▸ Failure.classified_ne_empty _ _
  · split at h
    · exact Option.some.inj h ▸ (by decide : errPermissionDenied ≠ "")
    · exact Option.some.inj h ▸ callErrorText_ne_empty _ _
  · split at h
    · cases h
    · exact Option.some.inj h ▸ (by decide : errMalformedResult ≠ "")
  · exact Option.some.inj h ▸ (by decide : errLostQuery ≠ "")
  · exact Option.some.inj h ▸ Failure.text_ne_empty _
  · cases h

theorem failure_ne_empty {m : Method} {w : Replies} {r : Method.Result} {text : String}
    (h : failure m w r = some text) : text ≠ "" := by
  have hunasked : unasked m r = some text → text ≠ "" := by
    intro h
    unfold unasked at h
    split at h
    · cases h
    · split at h
      · cases h
      · exact Option.some.inj h ▸ (by decide : errUnknown ≠ "")
  unfold failure at h
  split at h
  · exact hunasked h
  · exact hunasked h
  · exact failureOf_ne_empty h

/-- Under every schedule a call that has just ended returns what its own replies tell, and an error only with a text. -/
theorem tells_of_finished {S : SharedApis} (hr : calls.system.Reachable S) {n api : ℕ} {m : Method} {since : Around}
    {w : Replies} {r : Method.Result} {log : List _} (hlog : S.log = .finished n (api,m) since w (.ok r) :: log) :
    Tells api since S.around w m r ∧ ∀ text, failure m w r = some text → text ≠ "" := by
  have hpost : ∀ c s e, calls.allowed c e = true → (calls.body c).Post Later
      (fun e' _ w x => ∀ r, x = .ok r → Tells c.1 e e' w c.2 r) e s [] :=
    fun c s e hallowed => (ends_body hallowed c.2).mono (fun _ _ _ _ h => h.tells)
  obtain ⟨own,-,hend⟩ := Calls.post_of_finished (Q := fun c since now _ w x => ∀ r, x = .ok r →
    Tells c.1 since now w c.2 r) relied hpost hr hlog
  exact ⟨hend r rfl,fun text h => failure_ne_empty h⟩

theorem tells_of_overlapping : ∃ S since, calls.system.Reachable S ∧
    Tells 0 since S.around [⟨.call "pool.query" .none false,.error (.callError "EINVAL" "" "")⟩]
      (.query "pool.query" .none false) (.answered ⟨.none,"EINVAL",""⟩) := by
  obtain ⟨S,t,u,hrun,-,-,-,-,-,-,-,since,log,hlog⟩ := run_overlapping
  have hr : calls.system.Reachable S := (System.Reach.init rfl).run hrun
  exact ⟨S,since,hr,(tells_of_finished hr hlog).1⟩

end TruenasCE.Api
