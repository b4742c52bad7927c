/-
# JSON values as `nlohmann::json` holds and reads them

The documents and replies the program handles, and the reads it performs on them.  A read with a
default (`value`) is the one that matters: it answers the default only when the receiver is an
object without the key.  On a present member of another type, and on a receiver that is not an
object, it throws, and that exception is a real exit of every function that reads a reply.

Object members are kept as the list of pairs in key order; a document has each key once.
-/
import Mathlib.Algebra.Group.Int.Defs
import Mathlib.Algebra.Group.Nat.Defs
import Mathlib.Data.Int.DivMod

namespace Logosctl

/-- The exceptions a read can raise: `type_error` 302 and 306. -/
inductive TypeError
  | wrongType
  | notObject
  deriving DecidableEq, Repr

/-- A JSON value.  `float m e` is the double `m * 2 ^ e`; `int` covers the signed and the
unsigned 64-bit integers. -/
inductive Json
  | null
  | bool (b : Bool)
  | int (i : Int)
  | float (m e : Int)
  | str (s : String)
  | arr (xs : List Json)
  | obj (kvs : List (String × Json))

namespace Json

/-! ## 1. Shape -/

def isObject : Json → Bool
  | .obj _ => true
  | _ => false

def isNull : Json → Bool
  | .null => true
  | _ => false

def isString : Json → Bool
  | .str _ => true
  | _ => false

def isBoolean : Json → Bool
  | .bool _ => true
  | _ => false

/-- Of any of the three kinds of number. -/
def isNumber : Json → Bool
  | .int _ | .float _ _ => true
  | _ => false

def isArray : Json → Bool
  | .arr _ => true
  | _ => false

/-- `type_name()`. -/
def typeName : Json → String
  | .null => "null"
  | .obj _ => "object"
  | .arr _ => "array"
  | .str _ => "string"
  | .bool _ => "boolean"
  | .int _ | .float _ _ => "number"

theorem isNull_iff {j : Json} : j.isNull = true ↔ j = .null := by
  cases j <;> simp [isNull]

/-- What a range-for over the value visits, when the value is an array. -/
def elems : Json → List Json
  | .arr xs => xs
  | _ => []

/-- `find(key)`: the member, when the value is an object that has it. -/
def find? : Json → String → Option Json
  | .obj kvs, key => kvs.lookup key
  | _, _ => none

/-- `contains(key)`: false on anything that is not an object. -/
def contains (j : Json) (key : String) : Bool := (j.find? key).isSome

/-- The string under a key, and what stands for none. -/
def textOf (j : Json) (key : String) (dflt : String := "") : String :=
  match j.find? key with
  | some (.str s) => s
  | _ => dflt

@[inherit_doc textOf] def flagOf (j : Json) (key : String) (dflt : Bool := false) : Bool :=
  match j.find? key with
  | some (.bool b) => b
  | _ => dflt

@[inherit_doc textOf] def numberOf (j : Json) (key : String) (dflt : Int := 0) : Int :=
  match j.find? key with
  | some (.int i) => i
  | _ => dflt

/-! ## 2. Conversions -/

def getString : Json → Except TypeError String
  | .str s => .ok s
  | _ => .error .wrongType

def getBool : Json → Except TypeError Bool
  | .bool b => .ok b
  | _ => .error .wrongType

/-- `static_cast<int>` of a 64-bit integer. -/
def toInt32 (i : Int) : Int := Int.bmod i (2 ^ 32)

/-- A double cut to its integral part. -/
def truncate (m e : Int) : Int :=
  if 0 ≤ e then m * 2 ^ e.toNat else Int.tdiv m (2 ^ (-e).toNat)

/-- `get<int>()`: every arithmetic kind converts, booleans included.  A double out of range
converts to the least `int`, as the x86 conversion does. -/
def getInt : Json → Except TypeError Int
  | .int i => .ok (toInt32 i)
  | .bool b => .ok (if b then 1 else 0)
  | .float m e =>
    let v := truncate m e
    .ok (if -(2 ^ 31) ≤ v ∧ v < 2 ^ 31 then v else -(2 ^ 31))
  | _ => .error .wrongType

/-! ## 3. Reads with a default -/

/-- `value(key, dflt)`, for the conversion `get`. -/
def value {α : Type} (get : Json → Except TypeError α) (j : Json) (key : String) (dflt : α) :
    Except TypeError α :=
  match j with
  | .obj kvs =>
    match kvs.lookup key with
    | none => .ok dflt
    | some v => get v
  | _ => .error .notObject

def valueStr (j : Json) (key : String) (dflt : String := "") : Except TypeError String :=
  value getString j key dflt

def valueBool (j : Json) (key : String) (dflt : Bool) : Except TypeError Bool :=
  value getBool j key dflt

def valueInt (j : Json) (key : String) (dflt : Int) : Except TypeError Int :=
  value getInt j key dflt

section Value

variable {α : Type} {get : Json → Except TypeError α} {key : String}

/-- A read that answers was made on an object. -/
theorem isObject_of_value {j : Json} {dflt a : α} (h : value get j key dflt = .ok a) :
    j.isObject = true := by
  cases j with
  | obj kvs => rfl
  | _ => exact absurd h (by simp [value])

end Value

end Json

end Logosctl
