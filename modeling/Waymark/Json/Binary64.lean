/-!
Finite binary floating-point numbers of 64 bits, as exact values.

A number is a sign, a significand and a power of two. `ofRatio` rounds a quotient to the nearest
number, a half going to the even neighbour; `ofDecimal` reads decimal digits with one rounding of
the digits and one of the scaling; `shortest` finds the fewest decimal digits that round back.
-/

namespace Waymark.Json

/-- The number `± significand * 2 ^ exponent`. -/
structure Binary64 where
  negative : Bool
  significand : Nat
  exponent : Int
deriving DecidableEq, Repr, Inhabited

namespace Binary64

/-- Zero of either sign. -/
def zero (negative : Bool) : Binary64 :=
  ⟨negative, 0, 0⟩

/-- Whether the number is zero, of either sign. -/
def isZero (number : Binary64) : Bool :=
  number.significand == 0

/-- Numbers are compared by value, so the two zeros are the same. -/
def same (left right : Binary64) : Bool :=
  left == right || (left.isZero && right.isZero)

/-- The quotient to the nearest integer, a half going to the even one. -/
def roundHalfEven (num den : Nat) : Nat :=
  let whole := num / den
  let twice := 2 * (num % den)
  if twice < den then whole
  else if den < twice then whole + 1
  else if whole % 2 = 0 then whole else whole + 1

/-- A power of two as a numerator and a denominator. -/
def twoPower (exponent : Int) : Nat × Nat :=
  (Nat.pow 2 exponent.toNat, Nat.pow 2 (-exponent).toNat)

/-- The number nearest to a quotient, or none when it is too large. -/
def ofRatio (negative : Bool) (num den : Nat) : Option Binary64 :=
  if num = 0 then some (zero negative)
  else
    let guess : Int := (num.log2 : Int) - (den.log2 : Int) - 52
    let (up, down) := twoPower guess
    let fitted := if num * down < Nat.pow 2 52 * (den * up) then guess - 1 else guess
    let exponent := max fitted (-1074)
    let (up, down) := twoPower exponent
    let rounded := roundHalfEven (num * down) (den * up)
    let (significand, exponent) :=
      if rounded = Nat.pow 2 53 then (Nat.pow 2 52, exponent + 1) else (rounded, exponent)
    if 971 < exponent then none
    else if significand = 0 then some (zero negative)
    else some ⟨negative, significand, exponent⟩

/-- The rounded product of two magnitudes, with a given sign. -/
def mul (negative : Bool) (left right : Binary64) : Option Binary64 :=
  let (up, down) := twoPower (left.exponent + right.exponent)
  ofRatio negative (left.significand * right.significand * up) down

/-- The rounded quotient of two magnitudes, with a given sign. -/
def div (negative : Bool) (left right : Binary64) : Option Binary64 :=
  let (up, down) := twoPower (left.exponent - right.exponent)
  ofRatio negative (left.significand * up) (right.significand * down)

/-- The number nearest to a power of ten. -/
def powerOfTen (exponent : Nat) : Option Binary64 :=
  ofRatio false (Nat.pow 10 exponent) 1

/-- Read `± significand * 10 ^ exponent`: the digits are rounded, then scaled by a rounded power of
ten, or by two of them when one is out of range. None when the number is too large. -/
def ofDecimal (negative : Bool) (significand : Nat) (exponent : Int) : Option Binary64 := do
  if significand = 0 then return zero negative
  let digits ← ofRatio negative significand 1
  if 0 ≤ exponent then
    if 308 < exponent then none else mul negative digits (← powerOfTen exponent.toNat)
  else if -308 ≤ exponent then
    div negative digits (← powerOfTen (-exponent).toNat)
  else if -616 ≤ exponent then
    let first ← div negative digits (← powerOfTen 308)
    div negative first (← powerOfTen (-exponent - 308).toNat)
  else return zero negative

/-- Compare `digits * 10 ^ ten` with `binary * 2 ^ two`. -/
def compareScaled (digits : Nat) (ten : Int) (binary : Nat) (two : Int) : Ordering :=
  compare (digits * Nat.pow 10 ten.toNat * Nat.pow 2 (-two).toNat)
    (binary * Nat.pow 2 two.toNat * Nat.pow 10 (-ten).toNat)

/-- The largest power of ten not above `binary * 2 ^ two`, searched downwards from a bound. -/
def floorLogTen (binary : Nat) (two : Int) : Nat → Int → Int
  | 0, ten => ten
  | fuel + 1, ten =>
      match compareScaled 1 ten binary two with
      | .gt => floorLogTen binary two fuel (ten - 1)
      | _ => ten

/-- The value times four, on the scale of `two`, with the ends of the interval of values that round
to it. The lower end is nearer when the number is a power of two. -/
structure Interval where
  low : Nat
  middle : Nat
  high : Nat
  two : Int
  /-- Whether the ends themselves round to the number. -/
  closed : Bool

/-- The interval of values that round to a non-zero number. -/
def interval (number : Binary64) : Interval :=
  let middle := 4 * number.significand
  { low := if number.significand = Nat.pow 2 52 ∧ -1074 < number.exponent then middle - 1 else middle - 2
    middle := middle
    high := middle + 2
    two := number.exponent - 2
    closed := number.significand % 2 == 0 }

/-- Whether `digits * 10 ^ ten` is in an interval. -/
def Interval.contains (range : Interval) (digits : Nat) (ten : Int) : Bool :=
  let admits (side : Ordering) : Bool := side == .eq && range.closed
  let toLow := compareScaled digits ten range.low range.two
  let toHigh := compareScaled digits ten range.high range.two
  (toLow == .gt || admits toLow) && (toHigh == .lt || admits toHigh)

/-- The multiples of a power of ten just below the value, as a count. -/
def Interval.floorAt (range : Interval) (ten : Int) : Nat :=
  (range.middle * Nat.pow 2 range.two.toNat * Nat.pow 10 (-ten).toNat) /
    (Nat.pow 10 ten.toNat * Nat.pow 2 (-range.two).toNat)

/-- The nearer of the two neighbours of the value on the grid of a power of ten, a tie going to
the even one, if it is in the interval; else the other one, if that is. -/
def Interval.candidate? (range : Interval) (ten : Int) : Option Nat :=
  let down := range.floorAt ten
  match range.contains down ten, range.contains (down + 1) ten with
  | true, true =>
      match compareScaled (2 * down + 1) ten (2 * range.middle) range.two with
      | .gt => some down
      | .lt => some (down + 1)
      | .eq => some (if down % 2 = 0 then down else down + 1)
  | true, false => some down
  | false, true => some (down + 1)
  | false, false => none

/-- The first grid with a candidate, from the coarsest downwards. -/
def Interval.search (range : Interval) : Nat → Int → Nat × Int
  | 0, ten => (range.floorAt ten, ten)
  | fuel + 1, ten =>
      match range.candidate? ten with
      | some digits => (digits, ten)
      | none => range.search fuel (ten - 1)

/-- The fewest decimal digits that round back to a non-zero number, as digits and a power of ten:
the first grid of 1, 2, … 17 digits with a point in the interval of values that round to the
number, and of its two candidates there the nearer one. -/
def shortest (number : Binary64) : Nat × Int :=
  let range := number.interval
  let bound : Int := ((number.significand.log2 : Int) + number.exponent) * 30103 / 100000 + 1
  range.search 16 (floorLogTen range.middle range.two 4 bound)

/-- Where plain positional writing ends. -/
structure Format where
  /-- The decimal point stands at most this far right of the first digit. -/
  widest : Int
  /-- The decimal point stands less than this far left of the first digit. -/
  narrowest : Int

/-- Positional from `0.0001` up to sixteen digits before the point. -/
def plain : Format :=
  ⟨16, 5⟩

/-- The characters of shortest digits in a format: always with a point or an exponent. -/
def Format.write (format : Format) (digits : List Char) (ten : Int) : List Char :=
  let point := ten + digits.length
  if 0 ≤ ten ∧ point ≤ format.widest then
    digits ++ List.replicate ten.toNat '0' ++ ['.', '0']
  else if 0 < point ∧ point ≤ format.widest then
    digits.take point.toNat ++ '.' :: digits.drop point.toNat
  else if -format.narrowest < point ∧ point ≤ 0 then
    '0' :: '.' :: (List.replicate (-point).toNat '0' ++ digits)
  else
    let scale := 'e' :: (toString (point - 1)).toList
    match digits with
    | first :: second :: others => first :: '.' :: second :: others ++ scale
    | few => few ++ scale

/-- The text of a number: its shortest digits in a format. -/
def render (format : Format) (number : Binary64) : String :=
  let sign := if number.negative then "-" else ""
  if number.isZero then sign ++ "0.0"
  else
    let (digits, ten) := number.shortest
    let text := (toString digits).toList
    let zeros := (text.reverse.takeWhile (· == '0')).length
    sign ++ String.ofList (format.write (text.take (text.length - zeros)) (ten + zeros))

end Binary64

end Waymark.Json
