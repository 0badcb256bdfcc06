import Mathlib.Algebra.BigOperators.Group.Finset.Basic
import Mathlib.Data.Finset.Sum
import Mathlib.Data.Fintype.Basic
import TruenasCE.Library.Raising

/-! # Scrubbing an object graph

`scrub_strings` copies containers and rewrites exceptions in place. Containers and exceptions have an identity, so
they may be shared and may form cycles. A recursive call that finds no frame left of the recursion limit raises; the
calls that do not recurse are not counted.
-/
namespace TruenasCE.Redaction
open Library

def maxScrubDepth : ℕ := 32
def cyclePlaceholder : String := "..."
def redacted : String := "**REDACTED**"

variable {ι ε κ σ : Type}

inductive Item (ι ε σ : Type)
  | none
  | str (text : String)
  | bytes (data : List UInt8)
  /-- A number, a time, .. -/
  | scalar (value : σ)
  | container (i : ι)
  | exception (e : ε)

inductive Container (ι ε κ σ : Type)
  | list (items : List (Item ι ε σ))
  | tuple (items : List (Item ι ε σ))
  | dict (entries : List (κ × Item ι ε σ))

/-- The attributes of `_OSERROR_TEXT_ATTRS` -/
structure OsTexts (α : Type) where
  strerror : α
  filename : α
  filename2 : α

def OsTexts.map {α β : Type} (f : α → β) (texts : OsTexts α) : OsTexts β :=
  ⟨f texts.strerror,f texts.filename,f texts.filename2⟩

structure Exc (ι ε σ : Type) where
  args : ι
  /-- The `reason` of a `TrueNASCallError` -/
  reason : Option String
  osTexts : Option (OsTexts (Item ι ε σ))
  /-- The texts in other fields: the message of a group, notes, the `msg` of an `ImportError`, .. -/
  otherTexts : List String
  cause : Option ε
  context : Option ε
  members : List ε

structure Graph (ι ε κ σ : Type) where
  container : ι → Container ι ε κ σ
  exception : ε → Exc ι ε σ
  args_tuple : ∀ e, ∃ items, container (exception e).args = .tuple items

def Exc.linked (exc : Exc ι ε σ) : List ε := exc.cause.toList ++ exc.context.toList ++ exc.members

/-- A scrubbed value, which holds the containers that were copied. -/
inductive Tree (ε κ σ : Type)
  | none
  | str (text : String)
  | bytes (data : List UInt8)
  | scalar (value : σ)
  | exception (e : ε)
  | list (items : List (Tree ε κ σ))
  | tuple (items : List (Tree ε κ σ))
  | dict (entries : List (κ × Tree ε κ σ))

structure Scrubbed (ι ε κ σ : Type) where
  args : List (Tree ε κ σ)
  reason : Option String
  osTexts : Option (OsTexts (Item ι ε σ))

structure State (ι ε κ σ : Type) where
  seen : Finset (ι ⊕ ε)
  store : ε → Option (Scrubbed ι ε κ σ)

inductive Failure
  | recursionError
  /-- The loop over the linked exceptions does not end. -/
  | endless
  deriving DecidableEq, Repr

/-- The keys to redact, the text scrubber, and `bytes.decode(errors="replace")` -/
structure Scrubber (κ : Type) where
  toRedact : κ → Bool
  scrubText : String → String
  decode : List UInt8 → String

namespace Scrubber
variable (c : Scrubber κ)

/-- `key in TO_REDACT and value not in (None, "")` -/
def masks (key : κ) (value : Item ι ε σ) : Bool :=
  c.toRedact key &&
    match value with
    | .none => false
    | .str text => text ≠ ""
    | _ => true

/-- `_scrub_bytes`: the data are returned, or their scrubbed text. -/
def scrubBytes (data : List UInt8) : Option String :=
  if c.scrubText (c.decode data) = c.decode data then Option.none else some (c.scrubText (c.decode data))

def scrubOsText : Item ι ε σ → Item ι ε σ
  | .str text => .str (c.scrubText text)
  | .bytes data => ((c.scrubBytes data).map Item.str).getD (.bytes data)
  | value => value

def scrubReason : Option String → Option String
  | some reason => if reason ≠ "" then some (c.scrubText reason) else some reason
  | Option.none => Option.none

end Scrubber

/-- What `args` become when the value is assigned to them: its items, and of a text its characters. -/
def Tree.assigned : Tree ε κ σ → List (Tree ε κ σ)
  | .tuple items => items
  | .list items => items
  | .str text => text.toList.map (fun char => .str (String.singleton char))
  | _ => []

def mapState {φ α β τ : Type} (f : α → τ → Except φ (β × τ)) : List α → τ → Except φ (List β × τ)
  | [],s => .ok ([],s)
  | x :: rest,s => do
    let (y,t) ← f x s
    let (ys,u) ← mapState f rest t
    return (y :: ys,u)

section Scrub
variable [DecidableEq ι] [DecidableEq ε]

def State.add (s : State ι ε κ σ) (id : ι ⊕ ε) : State ι ε κ σ := { s with seen := insert id s.seen }
def State.discard (s : State ι ε κ σ) (id : ι ⊕ ε) : State ι ε κ σ := { s with seen := s.seen.erase id }

def State.assign (s : State ι ε κ σ) (e : ε) (fields : Scrubbed ι ε κ σ) : State ι ε κ σ :=
  { s with store := Function.update s.store e (some fields) }

variable (g : Graph ι ε κ σ) (c : Scrubber κ)

/-- The loop of `_scrub_exception_chain`, with the top of the stack first and a bound on its passes -/
def scrubPending (scrubExceptionText : ε → State ι ε κ σ → Except Failure (State ι ε κ σ)) :
    ℕ → List ε → State ι ε κ σ → Except Failure (State ι ε κ σ)
  | _,[],s => .ok s
  | 0,_ :: _,_ => .error .endless
  | passes + 1,current :: pending,s =>
    if .inr current ∈ s.seen then scrubPending scrubExceptionText passes pending s
    else do
      let t ← scrubExceptionText current (s.add (.inr current))
      scrubPending scrubExceptionText passes ((g.exception current).linked.reverse ++ pending) t

/-- What `_scrub_exception_text` assigns, with the scrubbed args -/
def scrubbedFields (e : ε) (args : Tree ε κ σ) : Scrubbed ι ε κ σ where
  args := args.assigned
  reason := c.scrubReason (g.exception e).reason
  osTexts := (g.exception e).osTexts.map (OsTexts.map c.scrubOsText)

def passes [Fintype ε] : ℕ := 1 + ∑ e, (g.exception e).linked.length

variable [Fintype ε]

mutual

/-- `_scrub_value`; the frames are those left of the recursion limit. -/
def scrubValue : ℕ → Item ι ε σ → ℕ → State ι ε κ σ → Except Failure (Tree ε κ σ × State ι ε κ σ)
  | 0,_,_,_ => .error .recursionError
  | frames + 1,item,depth,s =>
    match item with
    | .none => .ok (.none,s)
    | .scalar value => .ok (.scalar value,s)
    | .str text => .ok (.str (c.scrubText text),s)
    | .bytes data => .ok (((c.scrubBytes data).map Tree.str).getD (.bytes data),s)
    | .exception e => do
      let t ← scrubExceptionChain frames e s
      return (.exception e,t)
    | .container i =>
      if .inl i ∈ s.seen ∨ maxScrubDepth ≤ depth then .ok (.str cyclePlaceholder,s)
      else
        match g.container i with
        | .dict entries => do
          let (ys,t) ← mapState (fun entry s =>
            if c.masks entry.1 entry.2 then .ok ((entry.1,.str redacted),s)
            else do
              let (y,t) ← scrubValue frames entry.2 (depth + 1) s
              return ((entry.1,y),t)) entries (s.add (.inl i))
          return (.dict ys,t.discard (.inl i))
        | .list items => do
          let (ys,t) ← mapState (fun item s => scrubValue frames item (depth + 1) s) items (s.add (.inl i))
          return (.list ys,t.discard (.inl i))
        | .tuple items => do
          let (ys,t) ← mapState (fun item s => scrubValue frames item (depth + 1) s) items (s.add (.inl i))
          return (.tuple ys,t.discard (.inl i))

def scrubExceptionChain : ℕ → ε → State ι ε κ σ → Except Failure (State ι ε κ σ)
  | 0,_,_ => .error .recursionError
  | frames + 1,e,s => scrubPending g (fun current s => scrubExceptionText frames current s) (passes g) [e] s

def scrubExceptionText : ℕ → ε → State ι ε κ σ → Except Failure (State ι ε κ σ)
  | 0,_,_ => .error .recursionError
  | frames + 1,e,s => do
    let (args,t) ← scrubValue frames (.container (g.exception e).args) 0 s
    return t.assign e (scrubbedFields g c e args)

end

/-- What is scrubbed: by `scrub_strings` any value, by `scrub_exception` an exception -/
inductive Root (ι ε σ : Type)
  | strings (data : Item ι ε σ)
  | exception (e : ε)

def Root.item : Root ι ε σ → Item ι ε σ
  | .strings data => data
  | .exception e => .exception e

def Root.scrub (frames : ℕ) : Root ι ε σ → Except Failure (Tree ε κ σ × State ι ε κ σ)
  | .strings data => scrubValue g c frames data 0 ⟨∅,fun _ => none⟩
  | .exception e => do
    let t ← scrubExceptionChain g c frames e ⟨∅,fun _ => none⟩
    return (.exception e,t)

end Scrub
end TruenasCE.Redaction
