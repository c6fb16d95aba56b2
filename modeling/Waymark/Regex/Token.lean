import Waymark.Regex.CharClass
import Waymark.Regex.Expr
/-!
The tokens of a written regular expression.

Whether a brace is a quantifier hangs on what stands before it, and whether white space counts on the
switches that are on, so the reader remembers both.
-/

namespace Waymark.Regex

/-- The ways of matching that can be switched on and off inside an expression. -/
structure Flags where
  /-- Letters match in any case. -/
  caseless : Bool
  /-- `^` and `$` match at every line. -/
  multiLine : Bool
  /-- `.` matches the end of a line too. -/
  dotAll : Bool
  /-- A quantifier is lazy unless a question mark follows it. -/
  swapped : Bool
  /-- White space between tokens does not count, nor does the rest of a line after a `#`. -/
  verbose : Bool
deriving DecidableEq, Repr

/-- Nothing switched on. -/
def Flags.none : Flags :=
  ⟨false, false, false, false, false⟩

/-- One switch. -/
inductive Switch where
  | caseless
  | multiLine
  | dotAll
  | swapped
  | verbose
deriving DecidableEq, Repr

/-- Set a switch. -/
def Flags.set (flags : Flags) (switch : Switch) (on : Bool) : Flags :=
  match switch with
  | .caseless => { flags with caseless := on }
  | .multiLine => { flags with multiLine := on }
  | .dotAll => { flags with dotAll := on }
  | .swapped => { flags with swapped := on }
  | .verbose => { flags with verbose := on }

/-- Set switches in order. -/
def Flags.setAll (flags : Flags) (switches : List (Switch × Bool)) : Flags :=
  switches.foldl (fun flags (switch, on) => flags.set switch on) flags

/-- What a parenthesis opens. -/
inductive Opening where
  | capture (name : Option (List Char))
  /-- A group that does not capture, with switches for its inside. -/
  | plain (switches : List (Switch × Bool))
  | ahead (negated : Bool)
  | behind (negated : Bool)
  | atomic
deriving DecidableEq, Repr

/-- A token of an expression. -/
inductive Token where
  /-- A character of a set; case is disregarded where that is switched on. -/
  | set (chars : CharSet)
  | dot
  /-- `^`. -/
  | start
  /-- `$`. -/
  | finish
  | anchor (anchor : Anchor)
  | backref (index : Nat)
  | namedBackref (name : List Char)
  | opening (opening : Opening)
  /-- Switches for the rest of the group. -/
  | switches (switches : List (Switch × Bool))
  | closing
  | bar
  | quantifier (least : Nat) (most : Option Nat) (questioned possessive : Bool)
deriving DecidableEq, Repr

namespace Token

/-- Whether a token ends an item, so that a quantifier may follow. -/
def endsItem : Token → Bool
  | .opening _ | .bar | .quantifier .. => false
  | _ => true

/-- What is passed over between tokens. -/
inductive Gap where
  | between
  | comment
  | line
deriving DecidableEq, Repr

/-- Pass over comments and, if they do not count, white space and the rest of lines after a `#`. In a
comment a backslash takes the next character with it. `none` if a comment does not end. -/
def pass? (verbose : Bool) : Gap → List Char → Option (List Char)
  | .between, '(' :: '?' :: '#' :: rest => pass? verbose .comment rest
  | .between, c :: rest =>
      if verbose && c == '#' then pass? verbose .line rest
      else if verbose && (c == ' ' || c == '\t' || c == '\n' || c == '\r') then
        pass? verbose .between rest
      else some (c :: rest)
  | .comment, ')' :: rest => pass? verbose .between rest
  | .comment, '\\' :: _ :: rest => pass? verbose .comment rest
  | .comment, _ :: rest => pass? verbose .comment rest
  | .comment, [] => none
  | .line, '\n' :: rest => pass? verbose .between rest
  | .line, _ :: rest => pass? verbose .line rest
  | _, [] => some []

theorem pass?_cons {c : Char} (hc : c ≠ '(') (rest : List Char) :
    pass? false .between (c :: rest) = some (c :: rest) := by
  rw [pass?]
  · simp
  · intro _ h
    exact absurd h hc

theorem pass?_open {rest : List Char} (h : rest.head? ≠ some '?') :
    pass? false .between ('(' :: rest) = some ('(' :: rest) := by
  rw [pass?]
  · simp
  · rintro _ _ rfl
    simp at h

theorem pass?_open_question {c : Char} (hc : c ≠ '#') (rest : List Char) :
    pass? false .between ('(' :: '?' :: c :: rest) = some ('(' :: '?' :: c :: rest) := by
  rw [pass?]
  · simp
  · rintro _ _ heq
    simp only [List.cons.injEq, true_and] at heq
    exact hc heq.1

/-- Numbers are below this. -/
def numberLimit : Nat := Nat.pow 2 64

/-- Decimal digits at the front, as a number. -/
def decimal? (cs : List Char) : Option (Nat × List Char) :=
  match cs.takeWhile Char.isDigit with
  | [] => none
  | digits =>
      let value := digits.foldl (fun value c => value * 10 + (c.toNat - 48)) 0
      if value < numberLimit then some (value, cs.dropWhile Char.isDigit) else none

/-- The bounds of a repetition after its opening brace: `n}`, `n,}`, `n,m}` or `,m}`. -/
def bounds? (verbose : Bool) (cs : List Char) : Option (Nat × Option Nat × List Char) := do
  let cs ← pass? verbose .between cs
  let (least, rest) ← match cs with
    | ',' :: _ => some (0, cs)
    | cs => decimal? cs
  match ← pass? verbose .between rest with
  | '\x7d' :: rest => some (least, some least, rest)
  | ',' :: rest =>
      let rest ← pass? verbose .between rest
      let (most, rest) := match decimal? rest with
        | some (most, rest) => (some most, rest)
        | none => (none, rest)
      match ← pass? verbose .between rest with
      | '\x7d' :: rest => some (least, most, rest)
      | _ => none
  | _ => none

/-- A quantifier with given bounds, and the marks that may follow it. -/
def quantified (verbose : Bool) (least : Nat) (most : Option Nat) (cs : List Char) :
    Token × List Char :=
  let (questioned, cs) := match (pass? verbose .between cs).getD cs with
    | '?' :: rest => (true, rest)
    | cs => (false, cs)
  match cs with
  | '+' :: rest => (.quantifier least most questioned true, rest)
  | cs => (.quantifier least most questioned false, cs)

/-- The quantifier at the front, if one is. -/
def quantifier? (verbose : Bool) : List Char → Option (Token × List Char)
  | '?' :: rest => some (quantified verbose 0 (some 1) rest)
  | '*' :: rest => some (quantified verbose 0 none rest)
  | '+' :: rest => some (quantified verbose 1 none rest)
  | '\x7b' :: rest => do
      let (least, most, rest) ← bounds? verbose rest
      some (quantified verbose least most rest)
  | _ => none

theorem quantifier?_cons {verbose : Bool} {c : Char}
    (hc : c ≠ '?' ∧ c ≠ '*' ∧ c ≠ '+' ∧ c ≠ '\x7b') (rest : List Char) :
    quantifier? verbose (c :: rest) = none := by
  rw [quantifier?]
  all_goals simp_all

/-- The value of a hexadecimal digit. -/
def hexDigit? (c : Char) : Option Nat :=
  if '0' ≤ c ∧ c ≤ '9' then some (c.toNat - 48)
  else if 'a' ≤ c ∧ c ≤ 'f' then some (c.toNat - 87)
  else if 'A' ≤ c ∧ c ≤ 'F' then some (c.toNat - 55)
  else none

/-- The character of a code point written in hexadecimal digits. -/
def hexChar? (digits : List Char) : Option Char := do
  let values ← digits.mapM hexDigit?
  let code := values.foldl (fun value digit => value * 16 + digit) 0
  if h : code.isValidChar then some (Char.ofNatAux code h) else none

/-- A code point after its escape: the given number of digits, or up to eight in braces. -/
def hexEscape? (count : Nat) (cs : List Char) : Option (Char × List Char) :=
  let digits := cs.take count
  if digits.length = count ∧ digits.all fun c => (hexDigit? c).isSome then do
    some (← hexChar? digits, cs.drop count)
  else
    match cs with
    | '\x7b' :: rest =>
        let digits := rest.takeWhile fun c => (hexDigit? c).isSome
        match rest.dropWhile fun c => (hexDigit? c).isSome with
        | '\x7d' :: rest =>
            if digits.isEmpty || 8 < digits.length then none
            else do some (← hexChar? digits, rest)
        | _ => none
    | _ => none

/-- What a backslash makes of the characters after it, inside a class or outside. -/
inductive Escape where
  | char (c : Char)
  | set (set : CharSet)
  | anchor (anchor : Anchor)
  | backref (index : Nat)
  | namedBackref (name : List Char)

/-- A name in given brackets. -/
def bracketed? (opening closing : Char) (cs : List Char) : Option (List Char × List Char) :=
  match cs with
  | [] => none
  | c :: rest =>
      if c ≠ opening then none
      else
        match rest.takeWhile Unicode.isWord, rest.dropWhile Unicode.isWord with
        | [], _ => none
        | name, c :: rest => if c = closing then some (name, rest) else none
        | _, [] => none

/-- The hexadecimal digits as a set. -/
def hexDigits : CharSet :=
  .bracket false (.union (.range '0' '9') (.union (.range 'a' 'f') (.range 'A' 'F')))

/-- A property of characters after its escape: a letter, or a name in braces. -/
def property? (cs : List Char) : Option (Unicode.Property × List Char) :=
  match cs with
  | '\x7b' :: rest =>
      match rest.takeWhile (· ≠ '\x7d'), rest.dropWhile (· ≠ '\x7d') with
      | name, _ :: rest => (Unicode.Property.ofName? name).map fun property => (property, rest)
      | _, [] => none
  | c :: rest => (Unicode.Property.ofLetter? c).map fun property => (property, rest)
  | [] => none

/-- Read what follows a backslash. A letter without a meaning of its own is refused. -/
def escape? (inClass : Bool) (cs : List Char) : Option (Escape × List Char) :=
  match cs with
  | [] => none
  | c :: rest =>
      let outside (anchor : Anchor) : Option (Escape × List Char) :=
        some (if inClass then .char c else .anchor anchor, rest)
      match c with
      | 'd' => some (.set .digit, rest)
      | 'D' => some (.set (.complement .digit), rest)
      | 's' => some (.set .blank, rest)
      | 'S' => some (.set (.complement .blank), rest)
      | 'w' => some (.set .word, rest)
      | 'W' => some (.set (.complement .word), rest)
      | 'h' => some (.set hexDigits, rest)
      | 'H' => some (.set (.complement hexDigits), rest)
      | 'p' => (property? rest).map fun (property, rest) =>
          (.set (.bracket false (.property property)), rest)
      | 'P' => (property? rest).map fun (property, rest) =>
          (.set (.bracket true (.property property)), rest)
      | 'A' => outside .textStart
      | 'z' => outside .textEnd
      | 'Z' => if inClass then none else some (.anchor .lastLineEnd, rest)
      | 'b' =>
          if inClass then some (.char '\x08', rest)
          else if rest.head? = some '\x7b' then none
          else some (.anchor .wordBoundary, rest)
      | 'B' =>
          if inClass then some (.char c, rest)
          else if rest.head? = some '\x7b' then none
          else some (.anchor .noWordBoundary, rest)
      | '<' => outside .wordStart
      | '>' => outside .wordEnd
      | 'k' =>
          if inClass then some (.char c, rest)
          else
            match bracketed? '<' '>' rest with
            | some (name, rest) => some (.namedBackref name, rest)
            | none => do
                let (name, rest) ← bracketed? '\'' '\'' rest
                some (.namedBackref name, rest)
      | 'x' => (hexEscape? 2 rest).map fun (c, rest) => (.char c, rest)
      | 'u' => (hexEscape? 4 rest).map fun (c, rest) => (.char c, rest)
      | 'U' => (hexEscape? 8 rest).map fun (c, rest) => (.char c, rest)
      | 'a' => some (.char '\x07', rest)
      | 'f' => some (.char '\x0c', rest)
      | 'n' => some (.char '\n', rest)
      | 'r' => some (.char '\r', rest)
      | 't' => some (.char '\t', rest)
      | 'v' => some (.char '\x0b', rest)
      | 'e' => some (.char '\x1b', rest)
      | c =>
          if c.isDigit then
            (decimal? cs).map fun (index, rest) => (.backref index, rest)
          else if c.isAlpha && !(inClass && (c == 'K' || c == 'G')) then none
          else some (.char c, rest)

/-- The items of a class after its opening bracket, up to the bracket that closes it, and what
follows. `nesting` counts the brackets that are open. A closing bracket that comes first, or right
after a caret, is an item. Every step takes a character, so a fuel above their number is never used
up. -/
def classItems : Nat → Nat → List Char → Option (List ClassItem × List Char)
  | 0, _, _ => none
  | fuel + 1, nesting, cs =>
      let push (item : ClassItem) (found : Option (List ClassItem × List Char)) :
          Option (List ClassItem × List Char) :=
        found.map fun (items, rest) => (item :: items, rest)
      match cs with
      | [] => none
      | '\\' :: rest => do
          let (escape, rest) ← escape? true rest
          let item ← match escape with
            | .char c => some (.escaped c)
            | .set members => some (.set members)
            | _ => none
          push item (classItems fuel nesting rest)
      | '[' :: rest => push (.plain '[') (classItems fuel (nesting + 1) rest)
      | ']' :: rest =>
          if nesting = 1 then some ([.plain ']'], rest)
          else push (.plain ']') (classItems fuel (nesting - 1) rest)
      | c :: rest => push (.plain c) (classItems fuel nesting rest)

/-- Read a class after its opening bracket. -/
def readClass? (cs : List Char) : Option (CharSet × List Char) := do
  let (front, cs) : List ClassItem × List Char := match cs with
    | '^' :: ']' :: rest => ([.plain '^', .plain ']'], rest)
    | '^' :: rest => ([.plain '^'], rest)
    | ']' :: rest => ([.plain ']'], rest)
    | cs => ([], cs)
  let (items, rest) ← classItems (cs.length + 1) 1 cs
  return (← CharClass.ofItems? (front ++ items), rest)

/-- A switch by its letter. The letters of switches without an effect give none. -/
def switch? : Char → Option (Option Switch)
  | 'i' => some (some .caseless)
  | 'm' => some (some .multiLine)
  | 's' => some (some .dotAll)
  | 'U' => some (some .swapped)
  | 'x' => some (some .verbose)
  | 'u' => some none
  | _ => none

/-- Read switches after `(?`, up to the parenthesis or the colon that ends them. `first` tells
whether nothing has been read yet, `off` whether a hyphen has been, and `bare` whether it was the
last thing read. -/
def readSwitches (verbose : Bool) : List Char → (first off bare : Bool) → List (Switch × Bool) →
    Option (Token × List Char)
  | ')' :: rest, first, _, bare, done =>
      if first || bare then none else some (.switches done.reverse, rest)
  | ':' :: rest, _, _, bare, done =>
      if bare then none else some (.opening (.plain done.reverse), rest)
  | '-' :: rest, _, off, _, done =>
      if off then none else readSwitches verbose rest false true true done
  | c :: rest, _, off, _, done =>
      match switch? c with
      | none => if verbose && c == ' ' then readSwitches verbose rest false off false done else none
      | some none => if off then none else readSwitches verbose rest false off false done
      | some (some switch) => readSwitches verbose rest false off false ((switch, !off) :: done)
  | [], _, _, _, _ => none

/-- Read what follows an opening parenthesis. -/
def openingToken? (verbose : Bool) (cs : List Char) : Option (Token × List Char) :=
  match cs with
  | '?' :: '=' :: rest => some (.opening (.ahead false), rest)
  | '?' :: '!' :: rest => some (.opening (.ahead true), rest)
  | '?' :: '<' :: '=' :: rest => some (.opening (.behind false), rest)
  | '?' :: '<' :: '!' :: rest => some (.opening (.behind true), rest)
  | '?' :: '<' :: rest =>
      (bracketed? '<' '>' ('<' :: rest)).map fun (name, rest) =>
        (.opening (.capture (some name)), rest)
  | '?' :: 'P' :: '<' :: rest =>
      (bracketed? '<' '>' ('<' :: rest)).map fun (name, rest) =>
        (.opening (.capture (some name)), rest)
  | '?' :: 'P' :: '=' :: rest =>
      match rest.takeWhile Unicode.isWord, rest.dropWhile Unicode.isWord with
      | name, ')' :: rest => if name.isEmpty then none else some (.namedBackref name, rest)
      | _, _ => none
  | '?' :: '>' :: rest => some (.opening .atomic, rest)
  | '?' :: rest => readSwitches verbose rest true false false []
  | cs => some (.opening (.capture none), cs)

/-- A parenthesis that no question mark follows opens a group that captures. -/
theorem openingToken?_capture {verbose : Bool} {cs : List Char} (h : cs.head? ≠ some '?') :
    openingToken? verbose cs = some (.opening (.capture none), cs) := by
  rw [openingToken?]
  all_goals
    intro after heq
    simp [heq] at h

/-- What the tokens so far make of the next one. -/
structure Place where
  /-- An item that may be repeated has just ended. -/
  afterItem : Bool
  flags : Flags
  /-- The switches of the groups around, the innermost first. -/
  outer : List Flags
deriving Repr

namespace Place

/-- Before the first token. -/
def start : Place :=
  ⟨false, .none, []⟩

/-- After one more token. -/
def after (place : Place) (token : Token) : Place :=
  match token with
  | .opening (.plain changes) =>
      ⟨false, place.flags.setAll changes, place.flags :: place.outer⟩
  | .opening _ => ⟨false, place.flags, place.flags :: place.outer⟩
  | .switches changes => ⟨true, place.flags.setAll changes, place.outer⟩
  | .closing =>
      match place.outer with
      | flags :: outer => ⟨true, flags, outer⟩
      | [] => ⟨true, place.flags, []⟩
  | token => { place with afterItem := token.endsItem }

end Place

/-- The token at the front. -/
def next? (place : Place) (cs : List Char) : Option (Token × List Char) :=
  let verbose := place.flags.verbose
  match (if place.afterItem then quantifier? verbose cs else none) with
  | some found => some found
  | none =>
      match cs with
      | [] => none
      | '.' :: rest => some (.dot, rest)
      | '^' :: rest => some (.start, rest)
      | '$' :: rest => some (.finish, rest)
      | '|' :: rest => some (.bar, rest)
      | ')' :: rest => some (.closing, rest)
      | '(' :: rest => do openingToken? verbose (← pass? verbose .between rest)
      | '[' :: rest => (readClass? rest).map fun (members, rest) => (.set members, rest)
      | '\\' :: rest =>
          (escape? false rest).map fun (escape, rest) =>
            match escape with
            | .char c => (.set (.single c), rest)
            | .set members => (.set members, rest)
            | .anchor place => (.anchor place, rest)
            | .backref index => (.backref index, rest)
            | .namedBackref name => (.namedBackref name, rest)
      | '?' :: _ | '*' :: _ | '+' :: _ => none
      | c :: rest => some (.set (.single c), rest)

/-- Where no quantifier stands, the next token is read as at the beginning of a group. -/
theorem next?_of_quantifier?_eq_none {place : Place} {cs : List Char}
    (h : quantifier? place.flags.verbose cs = none) :
    next? place cs = next? { place with afterItem := false } cs := by
  simp only [next?, h, ite_self, Bool.false_eq_true, ↓reduceIte]

/-- The tokens of an expression. Every step takes a character, so a fuel above their number is
never used up. -/
def readAll : Nat → Place → List Char → Option (List Token)
  | 0, _, _ => none
  | fuel + 1, place, cs => do
      match ← pass? place.flags.verbose .between cs with
      | [] => some []
      | cs =>
          let (token, rest) ← next? place cs
          return token :: (← readAll fuel (place.after token) rest)

/-- The tokens of an expression, none if it is not one. -/
def ofChars? (cs : List Char) : Option (List Token) :=
  readAll (cs.length + 1) .start cs

end Token

end Waymark.Regex
