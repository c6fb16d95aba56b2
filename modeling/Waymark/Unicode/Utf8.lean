/-!
Text as octets and back.

Octets are read one at a time. Octets that are not the form of any character are grouped: the
longest beginning of a character's form that is not continued counts as one fault, and so does
every octet that begins no form. A reader either refuses faults or puts a replacement character
for each.
-/

namespace Waymark.Unicode.Utf8

/-- A character whose first octets have been read: how many are still to come, the range of the
next one, and the bits read so far. -/
structure Partial where
  owed : Nat
  low : Nat
  high : Nat
  bits : Nat
deriving DecidableEq, Repr

/-- What an octet is when no character has been begun. -/
inductive Lead where
  /-- A character of its own. -/
  | whole (c : Char)
  /-- The first octet of a character. -/
  | begun (part : Partial)
  /-- Nothing that can stand first. -/
  | fault
deriving DecidableEq, Repr

/-- Read the first octet of a character. -/
def lead (octet : UInt8) : Lead :=
  let n := octet.toNat
  if n < 0x80 then .whole (Char.ofNat n)
  else if n < 0xC2 then .fault
  else if n < 0xE0 then .begun ⟨1, 0x80, 0xBF, n - 0xC0⟩
  else if n < 0xF0 then
    .begun ⟨2, if n = 0xE0 then 0xA0 else 0x80, if n = 0xED then 0x9F else 0xBF, n - 0xE0⟩
  else if n < 0xF5 then
    .begun ⟨3, if n = 0xF0 then 0x90 else 0x80, if n = 0xF4 then 0x8F else 0xBF, n - 0xF0⟩
  else .fault

/-- Read octets, given a character that has been begun, if any. A fault is `none`. -/
def scan : Option Partial → List UInt8 → List (Option Char)
  | none, [] => []
  | some _, [] => [none]
  | none, octet :: rest =>
      match lead octet with
      | .whole c => some c :: scan none rest
      | .begun part => scan (some part) rest
      | .fault => none :: scan none rest
  | some part, octet :: rest =>
      let n := octet.toNat
      if part.low ≤ n ∧ n ≤ part.high then
        let bits := part.bits * 64 + (n - 0x80)
        if part.owed ≤ 1 then some (Char.ofNat bits) :: scan none rest
        else scan (some ⟨part.owed - 1, 0x80, 0xBF, bits⟩) rest
      else
        match lead octet with
        | .whole c => none :: some c :: scan none rest
        | .begun next => none :: scan (some next) rest
        | .fault => none :: none :: scan none rest

/-- The characters of octets, if all of them are well formed. -/
def decode? (octets : List UInt8) : Option (List Char) :=
  (scan none octets).mapM id

/-- The characters of octets, with a replacement character for each fault. -/
def decodeLossy (octets : List UInt8) : List Char :=
  (scan none octets).map fun c => c.getD '\uFFFD'

/-- How many octets characters take. -/
def size : List Char → Nat
  | [] => 0
  | c :: rest => c.utf8Size + size rest

/-- The octets of characters. -/
def encode (cs : List Char) : List UInt8 :=
  cs.flatMap String.utf8EncodeChar

end Waymark.Unicode.Utf8
