/-!
Sets of characters as spans of code points at an even distance, in increasing order.
-/

namespace Waymark.Unicode

/-- The code points `first, first + step, …, last`. -/
structure Span where
  first : Nat
  last : Nat
  step : Nat
deriving Repr

namespace Span

/-- Whether a span has a code point. -/
def contains (span : Span) (code : Nat) : Bool :=
  span.first ≤ code && code ≤ span.last && (code - span.first) % span.step == 0

/-- Whether one of some spans has a code point. The spans are ordered by where they begin, so none
of them does once one begins after it. -/
def anyContains : List Span → Nat → Bool
  | [], _ => false
  | span :: rest, code =>
      if code < span.first then false else span.contains code || anyContains rest code

end Span

end Waymark.Unicode
