import Waymark.Dict
import Waymark.Json.Binary64
/-!
Tree-shaped documents: the values that stores hold and settings documents are made of.

Object fields are a `Dict`, so an object has one spelling. Integers and binary numbers are kept
apart: no integer equals a binary number, and the two binary zeros are equal.
-/

namespace Waymark.Json

/-- A number as it was written: whole, or with a fraction or an exponent. -/
inductive Number where
  | integer (value : Int)
  | real (value : Binary64)
deriving DecidableEq, Repr, Inhabited

/-- Numbers of one kind are compared by value. -/
def Number.same : Number → Number → Bool
  | .integer left, .integer right => left == right
  | .real left, .real right => left.same right
  | _, _ => false

/-- A document. -/
inductive Value where
  | null
  | bool (value : Bool)
  | number (value : Number)
  | string (value : String)
  | array (items : List Value)
  | object (fields : List (String × Value))
deriving Repr, Inhabited

namespace Value

mutual

/-- Equality of documents: the same shape, the same texts, and numbers of the same value. -/
def same : Value → Value → Bool
  | .null, .null => true
  | .bool left, .bool right => left == right
  | .number left, .number right => left.same right
  | .string left, .string right => left == right
  | .array left, .array right => sameItems left right
  | .object left, .object right => sameFields left right
  | _, _ => false

/-- Equality of item lists, item by item. -/
def sameItems : List Value → List Value → Bool
  | [], [] => true
  | left :: lefts, right :: rights => same left right && sameItems lefts rights
  | _, _ => false

/-- Equality of field lists, field by field in key order. -/
def sameFields : List (String × Value) → List (String × Value) → Bool
  | [], [] => true
  | (name, left) :: lefts, (other, right) :: rights =>
      name == other && same left right && sameFields lefts rights
  | _, _ => false

end

/-- The empty object. -/
def emptyObject : Value :=
  .object []

/-- Whether a document is an object. -/
def isObject : Value → Bool
  | .object _ => true
  | _ => false

/-- A whole number as a document. -/
def ofInt (value : Int) : Value :=
  .number (.integer value)

/-- A natural number as a document. -/
def ofNat (value : Nat) : Value :=
  .number (.integer value)

/-- A document that may be missing, with null in its place. -/
def ofOption : Option Value → Value
  | none => .null
  | some value => value

end Value

end Waymark.Json
