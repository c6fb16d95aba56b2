/-!
Characters that are mapped alike: runs of code points at an even distance, all moved by the same
amount. Tables of case mappings are lists of runs.
-/

namespace Waymark.Unicode

/-- The code points `first, first + step, …, last`, each moved by `shift`. -/
structure Run where
  first : Nat
  last : Nat
  step : Nat
  shift : Int
deriving Repr

namespace Run

/-- Whether a run has a code point. -/
def contains (run : Run) (code : Nat) : Bool :=
  run.first ≤ code && code ≤ run.last && (code - run.first) % run.step == 0

/-- Where a code point is moved, if the run has it. -/
def image? (run : Run) (code : Nat) : Option Nat :=
  if run.contains code then some ((code : Int) + run.shift).toNat else none

/-- The code point that is moved to another one, if the run has it. -/
def preimage? (run : Run) (code : Nat) : Option Nat :=
  let source := (code : Int) - run.shift
  if 0 ≤ source ∧ run.contains source.toNat then some source.toNat else none

end Run

/-- Whether a code point lies in one of some ranges, ends included. -/
def inRanges (ranges : List (Nat × Nat)) (code : Nat) : Bool :=
  ranges.any fun range => range.1 ≤ code && code ≤ range.2

end Waymark.Unicode
