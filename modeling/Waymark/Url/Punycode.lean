/-!
Labels of domain names in ASCII.

The characters of ASCII come first. The others are inserted one after another in increasing order;
each insertion is one number, which counts the places passed since the last one, written in digits
whose range adapts to the numbers before.
-/

namespace Waymark.Url.Punycode

/-- The digit of a value below thirty-six. -/
def digit (value : Nat) : Char :=
  if value < 26 then Char.ofNat (0x61 + value) else Char.ofNat (0x30 + (value - 26))

/-- The value of a digit. -/
def digitValue? (c : Char) : Option Nat :=
  if 'a' ≤ c ∧ c ≤ 'z' then some (c.toNat - 0x61)
  else if 'A' ≤ c ∧ c ≤ 'Z' then some (c.toNat - 0x41)
  else if '0' ≤ c ∧ c ≤ '9' then some (c.toNat - 0x30 + 26)
  else none

/-- The value from which on a digit at a position is not the last of its number. -/
def threshold (position bias : Nat) : Nat :=
  min 26 (max 1 (36 * position - bias))

theorem threshold_pos (position bias : Nat) : 1 ≤ threshold position bias := by
  unfold threshold
  omega

/-- Scale a number down until it is small, counting the steps. -/
def scale (number steps : Nat) : Nat × Nat :=
  if 455 < number then scale (number / 35) (steps + 36) else (number, steps)
termination_by number
decreasing_by omega

/-- The bias after a number, given how many characters there are with the one it inserted. -/
def adapt (number count : Nat) (isFirst : Bool) : Nat :=
  let start := if isFirst then number / 700 else number / 2
  let (small, steps) := scale (start + start / count) 0
  steps + 36 * small / (small + 38)

/-- A number in digits, from a position on. -/
def writeNumber (bias position number : Nat) : List Char :=
  let limit := threshold position bias
  if number < limit then [digit number]
  else
    digit (limit + (number - limit) % (36 - limit)) ::
      writeNumber bias (position + 1) ((number - limit) / (36 - limit))
termination_by number
decreasing_by
  have hpos := threshold_pos position bias
  calc (number - threshold position bias) / (36 - threshold position bias)
      ≤ number - threshold position bias := Nat.div_le_self _ _
    _ < number := by omega

/-- What has been written while characters are inserted: the digits, the places passed since the
last insertion, the bias and the number of characters so far. -/
structure Progress where
  digits : List Char
  passed : Nat
  bias : Nat
  count : Nat

/-- Pass a character while those of one code are inserted. -/
def Progress.pass (basics code : Nat) (progress : Progress) (c : Char) : Progress :=
  if c.toNat < code then { progress with passed := progress.passed + 1 }
  else if c.toNat = code then
    { digits := progress.digits ++ writeNumber progress.bias 1 progress.passed
      passed := 0
      bias := adapt progress.passed (progress.count + 1) (progress.count = basics)
      count := progress.count + 1 }
  else progress

/-- Insert the characters of the given codes, which increase, from a code on. -/
def insertCodes (label : List Char) (basics : Nat) : List Nat → Nat → Progress → Progress
  | [], _, progress => progress
  | code :: codes, next, progress =>
      let progress :=
        { progress with passed := progress.passed + (code - next) * (progress.count + 1) }
      let progress := label.foldl (Progress.pass basics code) progress
      insertCodes label basics codes (code + 1) { progress with passed := progress.passed + 1 }

/-- Write a label in ASCII. -/
def encode (label : List Char) : List Char :=
  let basic := label.filter fun c => c.toNat < 0x80
  let codes := ((label.filter fun c => 0x80 ≤ c.toNat).map Char.toNat).mergeSort.eraseDups
  let progress := insertCodes label basic.length codes 0x80 ⟨[], 0, 72, basic.length⟩
  basic ++ (if basic.isEmpty then [] else ['-']) ++ progress.digits

/-- Read a number from its digits, given the weight of the first one: the number and what follows. -/
def readNumber? (bias : Nat) : Nat → Nat → Nat → List Char → Option (Nat × List Char)
  | _, _, _, [] => none
  | position, weight, total, c :: rest => do
      let value ← digitValue? c
      let total := total + value * weight
      let limit := threshold position bias
      if value < limit then some (total, rest)
      else readNumber? bias (position + 1) (weight * (36 - limit)) total rest

theorem length_lt_of_readNumber? {bias position weight total number : Nat} {cs rest : List Char}
    (h : readNumber? bias position weight total cs = some (number, rest)) :
    rest.length < cs.length := by
  induction cs generalizing position weight total with
  | nil => simp [readNumber?] at h
  | cons c cs ih =>
      simp only [readNumber?, Option.bind_eq_bind, Option.bind_eq_some_iff] at h
      obtain ⟨value, -, h⟩ := h
      split at h
      · simp only [Option.some.injEq, Prod.mk.injEq] at h
        simp [← h.2]
      · have := ih h
        simp only [List.length_cons]
        omega

/-- Insert the characters that digits say, given the code and the place of the last insertion. -/
def readInsertions? (bias code place : Nat) (label : List Char) (cs : List Char) :
    Option (List Char) :=
  match cs with
  | [] => some label
  | c :: rest =>
      match _h : readNumber? bias 1 1 0 (c :: rest) with
      | none => none
      | some (number, after) =>
          let count := label.length + 1
          let code := code + (place + number) / count
          let place := (place + number) % count
          if code.isValidChar then
            readInsertions? (adapt number count (label.all (·.toNat < 0x80))) code
              (place + 1) (label.take place ++ Char.ofNat code :: label.drop place) after
          else none
termination_by cs.length
decreasing_by exact length_lt_of_readNumber? _h

/-- Read a label from its form in ASCII. -/
def decode? (cs : List Char) : Option (List Char) :=
  let basic := (cs.reverse.dropWhile (· ≠ '-')).drop 1 |>.reverse
  let digits := if cs.contains '-' then (cs.reverse.takeWhile (· ≠ '-')).reverse else cs
  if basic.all (·.toNat < 0x80) then readInsertions? 72 0x80 0 basic digits else none

end Waymark.Url.Punycode
