import Mathlib.Data.Int.Notation
import Mathlib.Data.Rat.Init
import TruenasCE.Library.Mapping

/-! # Values of the parsed data

What a response of the API and the data of the coordinator hold: JSON, and the times that the
parser makes of it. Equality and hashing are those of the interpreter, in which `True`, `1` and
`1.0` are one key.
-/
namespace TruenasCE.ApiParser
open Library

inductive PyFloat
  | finite (q : ℚ)
  | infinite (negative : Bool)
  deriving DecidableEq, Repr

inductive Value
  | none
  | bool (b : Bool)
  | int (i : ℤ)
  | float (f : PyFloat)
  | str (s : String)
  | list (items : List Value)
  | dict (fields : List (String × Value))
  /-- A time in UTC, in microseconds since 1970. -/
  | datetime (microseconds : ℤ)

abbrev Fields := Mapping String Value

/-- `fields.get(name)` -/
def dictGet (fields : Fields) (name : String) : Value := (fields.lookup name).getD .none

theorem dictGet_set {fields : Fields} {name name' : String} {value : Value} :
    dictGet (Mapping.set fields name value) name' = if name' = name then value else dictGet fields name' := by
  unfold dictGet
  rw [Mapping.lookup_set]
  split
  · rfl
  · rfl

/-- What a hashable value is as a key of a dict. -/
inductive Key
  | none
  | number (q : ℚ)
  | infinite (negative : Bool)
  | str (s : String)
  | datetime (microseconds : ℤ)
  deriving DecidableEq, Repr

namespace Value

def key? : Value → Option Key
  | .none => some .none
  | .bool b => some (.number (if b then 1 else 0))
  | .int i => some (.number i)
  | .float (.finite q) => some (.number q)
  | .float (.infinite negative) => some (.infinite negative)
  | .str s => some (.str s)
  | .datetime t => some (.datetime t)
  | .list _ => Option.none
  | .dict _ => Option.none

/-- `bool(value)` -/
def truthy : Value → Bool
  | .none => false
  | .bool b => b
  | .int i => i ≠ 0
  | .float (.finite q) => q ≠ 0
  | .float (.infinite _) => true
  | .str s => s ≠ ""
  | .list items => !items.isEmpty
  | .dict fields => !fields.isEmpty
  | .datetime _ => true

def isNone : Value → Bool
  | .none => true
  | _ => false

mutual

/-- `==` -/
def eq : Value → Value → Bool
  | .list xs, .list ys => eqItems xs ys
  | .dict xs, .dict ys => decide (xs.length = ys.length) && eqFields xs ys
  | x, y =>
    match x.key?, y.key? with
    | some k, some l => decide (k = l)
    | _, _ => false

def eqItems : List Value → List Value → Bool
  | [], [] => true
  | x :: xs, y :: ys => eq x y && eqItems xs ys
  | _, _ => false

def eqFields : List (String × Value) → List (String × Value) → Bool
  | [], _ => true
  | (k,x) :: xs, ys =>
    (match ys.lookup k with
      | some y => eq x y
      | Option.none => false) && eqFields xs ys

end

@[simp] theorem eq_str_iff {v : Value} {s : String} : v.eq (.str s) = true ↔ v = .str s := by
  cases v with
  | str t => simp [eq,key?]
  | float f => cases f <;> simp [eq,key?]
  | none | bool | int | list | dict | datetime => simp [eq,key?]

/-- Scalars of different types may be equal, and an order of fields does not matter. -/
example : eq (.dict [("a",.int 1),("b",.list [.bool true])])
    (.dict [("b",.list [.float (.finite 1)]),("a",.bool true)]) = true := by decide

end Value
end TruenasCE.ApiParser
