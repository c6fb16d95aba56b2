import Waymark.Unicode.CaseFolding
import Waymark.Unicode.Property
/-!
Sets of characters that an expression names, and membership in them.

Without regard to case, a bracketed class holds a character when it holds one of its case variants;
that is decided before the class is negated, bracket by bracket.
-/

namespace Waymark.Regex

/-- The operations between the parts of a bracketed class. -/
inductive SetOperation where
  | intersection
  | difference
  | symmetricDifference
deriving DecidableEq, Repr

/-- Membership after an operation. -/
def SetOperation.apply : SetOperation → Bool → Bool → Bool
  | .intersection, left, right => left && right
  | .difference, left, right => left && !right
  | .symmetricDifference, left, right => left != right

/-- A set of characters. -/
inductive CharSet where
  | empty
  | range (low high : Char)
  | digit
  | blank
  | word
  | property (named : Unicode.Property)
  | complement (set : CharSet)
  | union (left right : CharSet)
  | operation (operation : SetOperation) (left right : CharSet)
  /-- A class in brackets. -/
  | bracket (negated : Bool) (items : CharSet)
deriving DecidableEq, Repr

namespace CharSet

/-- The set of one character, which other cases of it belong to as well where case is disregarded. -/
def single (c : Char) : CharSet :=
  .bracket false (.range c c)

/-- Every character. -/
def any : CharSet :=
  .complement .empty

/-- Every character but the end of a line. -/
def anyInLine : CharSet :=
  .complement (.range '\n' '\n')

/-- Whether a predicate holds of a character or, without regard to case, of a variant of it. -/
def inSomeCase (caseless : Bool) (holds : Char → Bool) (c : Char) : Bool :=
  if caseless then (Unicode.caseVariants c).any holds else holds c

/-- Membership, with or without regard to case. -/
def contains (caseless : Bool) : CharSet → Char → Bool
  | .empty, _ => false
  | .range low high, c => decide (low ≤ c) && decide (c ≤ high)
  | .digit, c => Unicode.isDigit c
  | .blank, c => Unicode.isBlank c
  | .word, c => Unicode.isWord c
  | .property named, c => named.holds c
  | .complement set, c => !contains caseless set c
  | .union left right, c => contains caseless left c || contains caseless right c
  | .operation op left right, c =>
      op.apply (inSomeCase caseless (contains caseless left) c)
        (inSomeCase caseless (contains caseless right) c)
  | .bracket negated items, c => inSomeCase caseless (contains caseless items) c != negated

end CharSet

end Waymark.Regex
