import Waymark.Json.Value
import Waymark.Unicode.Utf8
/-!
Documents as events, read from text.

`scan` walks a text once and gives the events of the document in it, in order, up to the first
place where the text is not a document. What stops it is kept as the `ending`, so a reader that
finds a fault in an early event reports that fault and not a later one of the text.
-/

namespace Waymark.Json

/-- Why a document is refused. -/
inductive Failure where
  /-- The text ends too early. -/
  | unfinished
  /-- The text is not a document. -/
  | malformed
  /-- The document does not have the expected shape. -/
  | mismatched
deriving DecidableEq, Repr, Inhabited

/-- One step through a document. An atom is null, a boolean, a number or a string. -/
inductive Event where
  | atom (value : Value)
  | beginArray
  /-- An item follows. -/
  | item
  | endArray
  | beginObject
  /-- A field of this name follows. -/
  | key (name : String)
  | endObject
deriving Repr, Inhabited

/-- Events, and what stopped the reading of the text after them. -/
structure Events where
  events : List Event
  ending : Option Failure
deriving Inhabited

mutual

/-- The events of a document. -/
def Value.events : Value → List Event
  | .array items => .beginArray :: itemEvents items ++ [.endArray]
  | .object fields => .beginObject :: fieldEvents fields ++ [.endObject]
  | atom => [.atom atom]

/-- The events of items in a row. -/
def itemEvents : List Value → List Event
  | [] => []
  | item :: rest => .item :: Value.events item ++ itemEvents rest

/-- The events of fields in a row. -/
def fieldEvents : List (String × Value) → List Event
  | [] => []
  | (name, value) :: rest => .key name :: Value.events value ++ fieldEvents rest

end

namespace Scan

/-- The white space of documents. -/
def isBlank (c : Char) : Bool :=
  c == ' ' || c == '\n' || c == '\t' || c == '\r'

/-- The value of a hexadecimal digit. -/
def hexDigit? (c : Char) : Option Nat :=
  if '0' ≤ c ∧ c ≤ '9' then some (c.toNat - 48)
  else if 'a' ≤ c ∧ c ≤ 'f' then some (c.toNat - 87)
  else if 'A' ≤ c ∧ c ≤ 'F' then some (c.toNat - 55)
  else none

/-- The value of four hexadecimal digits. -/
def hexQuad? (a b c d : Char) : Option Nat := do
  return ((← hexDigit? a) * 4096 + (← hexDigit? b) * 256 + (← hexDigit? c) * 16 + (← hexDigit? d))

/-- The fault of four hexadecimal digits that are not there: the text is unfinished only if fewer
than four bytes are left. -/
def quadFailure (rest : List Char) : Failure :=
  if Unicode.Utf8.size rest < 4 then .unfinished else .malformed

/-- The characters that a backslash may stand before, apart from `u`. -/
def simpleEscape? : Char → Option Char
  | '"' => some '"'
  | '\\' => some '\\'
  | '/' => some '/'
  | 'b' => some '\x08'
  | 'f' => some '\x0c'
  | 'n' => some '\n'
  | 'r' => some '\r'
  | 't' => some '\t'
  | _ => none

/-- Read the rest of a string up to its closing quote; the characters so far are in reverse. A code
point above U+FFFF is written as a high and a low surrogate, and neither stands alone. -/
def string : List Char → List Char → Except Failure (String × List Char)
  | [], _ => .error .unfinished
  | '"' :: rest, done => .ok (String.ofList done.reverse, rest)
  | '\\' :: 'u' :: a :: b :: c :: d :: rest, done =>
      match hexQuad? a b c d with
      | none => .error .malformed
      | some high =>
          if 0xDC00 ≤ high ∧ high ≤ 0xDFFF then .error .malformed
          else if 0xD800 ≤ high ∧ high ≤ 0xDBFF then
            match rest with
            | '\\' :: 'u' :: a :: b :: c :: d :: rest =>
                match hexQuad? a b c d with
                | none => .error .malformed
                | some low =>
                    if 0xDC00 ≤ low ∧ low ≤ 0xDFFF then
                      string rest (Char.ofNat (0x10000 + (high - 0xD800) * 1024 + (low - 0xDC00)) :: done)
                    else .error .malformed
            | '\\' :: 'u' :: few => .error (quadFailure few)
            | ['\\'] => .error .unfinished
            | [] => .error .unfinished
            | _ => .error .malformed
          else string rest (Char.ofNat high :: done)
  | '\\' :: 'u' :: few, _ => .error (quadFailure few)
  | ['\\'], _ => .error .unfinished
  | '\\' :: c :: rest, done =>
      match simpleEscape? c with
      | some meant => string rest (meant :: done)
      | none => .error .malformed
  | c :: rest, done => if c.toNat < 0x20 then .error .malformed else string rest (c :: done)

/-- Split off the decimal digits at the front. -/
def digits (cs : List Char) : List Char × List Char :=
  (cs.takeWhile Char.isDigit, cs.dropWhile Char.isDigit)

/-- The value of decimal digits. -/
def digitsValue (cs : List Char) : Nat :=
  cs.foldl (fun value c => value * 10 + (c.toNat - 48)) 0

/-- The largest value of a significand. -/
def largest : Nat := Nat.pow 2 64 - 1

/-- Take digits into a significand while it fits; what is left starts with the first that does not
fit. -/
def significand : Nat → List Char → Nat × List Char
  | value, [] => (value, [])
  | value, c :: rest =>
      let next := value * 10 + (c.toNat - 48)
      if next ≤ largest then significand next rest else (value, c :: rest)

/-- The digits of a part of a number that has to have some, and the rest. -/
def someDigits (cs : List Char) : Except Failure (List Char × List Char) :=
  match digits cs with
  | ([], []) => .error .unfinished
  | ([], _) => .error .malformed
  | (ds, rest) => .ok (ds, rest)

/-- The digits after the point, if there is one, and the rest. -/
def fractionPart : List Char → Except Failure (Option (List Char) × List Char)
  | '.' :: cs => do
      let (ds, rest) ← someDigits cs
      return (some ds, rest)
  | cs => return (none, cs)

/-- Whether a minus stands before the digits of an exponent, and what follows the sign. -/
def exponentSign : List Char → Bool × List Char
  | '-' :: cs => (true, cs)
  | '+' :: cs => (false, cs)
  | cs => (false, cs)

/-- The exponent with its sign, if there is one, and the rest. -/
def exponentPart : List Char → Except Failure (Option Int × List Char)
  | [] => return (none, [])
  | c :: cs =>
      if c = 'e' ∨ c = 'E' then do
        let (negative, cs) := exponentSign cs
        let (ds, rest) ← someDigits cs
        let size : Int := digitsValue ds
        return (some (if negative then -size else size), rest)
      else return (none, c :: cs)

/-- The number of a sign and parts, unless it is too large. A whole number without a point or
exponent is an integer if it is in the range of 64 bits, signed when negative. -/
def numberOf (negative : Bool) (whole : List Char) (fraction : Option (List Char))
    (exponent : Option Int) : Option Number :=
  let (value, dropped) := significand 0 whole
  if fraction.isNone ∧ exponent.isNone ∧ dropped.isEmpty ∧
      (negative → 0 < value ∧ value ≤ Nat.pow 2 63) then
    some (.integer (if negative then -(value : Int) else value))
  else
    let (value, scale) : Nat × Int :=
      match fraction with
      | none => (value, dropped.length)
      | some ds =>
          let (value, unread) := significand value ds
          (value, (dropped.length : Int) - ((ds.length - unread.length : Nat) : Int))
    (Binary64.ofDecimal negative value (scale + exponent.getD 0)).map .real

/-- Read a number after its sign. -/
def number (negative : Bool) (cs : List Char) : Except Failure (Number × List Char) := do
  let (whole, rest) ← someDigits cs
  if whole.head? = some '0' ∧ 1 < whole.length then throw .malformed
  let (fraction, rest) ← fractionPart rest
  let (exponent, rest) ← exponentPart rest
  match numberOf negative whole fraction exponent with
  | some value => return (value, rest)
  | none => throw .malformed

/-- Read the letters of a fixed word. -/
def word : List Char → List Char → Except Failure (List Char)
  | [], rest => .ok rest
  | _ :: _, [] => .error .unfinished
  | w :: ws, c :: cs => if w = c then word ws cs else .error .malformed

/-- Read an atom that starts with a given character. -/
def atom (first : Char) (rest : List Char) : Except Failure (Value × List Char) :=
  match first with
  | 'n' => (word ['u', 'l', 'l'] rest).map fun rest => (.null, rest)
  | 't' => (word ['r', 'u', 'e'] rest).map fun rest => (.bool true, rest)
  | 'f' => (word ['a', 'l', 's', 'e'] rest).map fun rest => (.bool false, rest)
  | '"' => (string rest []).map fun (text, rest) => (.string text, rest)
  | '-' => (number true rest).map fun (value, rest) => (.number value, rest)
  | c =>
      if c.isDigit then (number false (c :: rest)).map fun (value, rest) => (.number value, rest)
      else .error .malformed

/-- An open array or object. -/
inductive Frame where
  | array
  | object
deriving DecidableEq

/-- What may come next. -/
inductive Phase where
  /-- A value. -/
  | value
  /-- The first item of an array, or its end. -/
  | firstItem
  /-- The first key of an object, or its end. -/
  | firstKey
  /-- A key, after a comma. -/
  | nextKey
  /-- The colon after a key. -/
  | colon
  /-- What follows a value. -/
  | after
deriving DecidableEq

/-- Containers nest at most this deep. -/
def deepest : Nat := 127

/-- The events of a text from a phase onwards; those so far are in reverse. Each step takes a
character, so a fuel above the number of characters is never used up. -/
def run : Nat → Phase → List Frame → List Char → List Event → Events
  | 0, _, _, _, done => ⟨done.reverse, some .malformed⟩
  | fuel + 1, phase, frames, cs, done =>
      let stop (failure : Failure) : Events := ⟨done.reverse, some failure⟩
      match phase, cs.dropWhile isBlank with
      | .value, '[' :: rest =>
          if deepest ≤ frames.length then stop .malformed
          else run fuel .firstItem (.array :: frames) rest (.beginArray :: done)
      | .value, '\x7b' :: rest =>
          if deepest ≤ frames.length then stop .malformed
          else run fuel .firstKey (.object :: frames) rest (.beginObject :: done)
      | .value, c :: rest =>
          match atom c rest with
          | .ok (value, rest) => run fuel .after frames rest (.atom value :: done)
          | .error failure => stop failure
      | .firstItem, ']' :: rest => run fuel .after frames.tail rest (.endArray :: done)
      | .firstItem, c :: rest => run fuel .value frames (c :: rest) (.item :: done)
      | .firstKey, '\x7d' :: rest => run fuel .after frames.tail rest (.endObject :: done)
      | .firstKey, '"' :: rest | .nextKey, '"' :: rest =>
          match string rest [] with
          | .ok (name, rest) => run fuel .colon frames rest (.key name :: done)
          | .error failure => stop failure
      | .colon, ':' :: rest => run fuel .value frames rest done
      | .after, rest =>
          match frames, rest with
          | [], [] => ⟨done.reverse, none⟩
          | .array :: _, ',' :: rest => run fuel .value frames rest (.item :: done)
          | .array :: frames, ']' :: rest => run fuel .after frames rest (.endArray :: done)
          | .object :: _, ',' :: rest => run fuel .nextKey frames rest done
          | .object :: frames, '\x7d' :: rest => run fuel .after frames rest (.endObject :: done)
          | _ :: _, [] => stop .unfinished
          | _, _ => stop .malformed
      | _, [] => stop .unfinished
      | _, _ => stop .malformed

end Scan

/-- The events of the document that a text holds. -/
def scan (text : List Char) : Events :=
  Scan.run (2 * text.length + 2) .value [] text []

/-- The events of a document that is at hand. -/
def Events.ofValue (value : Value) : Events :=
  ⟨value.events, none⟩

end Waymark.Json
