import Waymark.Pattern.Error
/-!
The tokens of a route pattern.

`tokenize` reads a pattern from left to right into tokens with their positions, the last of which
is always `finish`; `Token.write` writes a token back.
-/

namespace Waymark.Pattern

/-- How often a parameter or a group may occur. Without a quantifier it occurs once. -/
inductive Quantifier where
  | optional
  | zeroOrMore
  | oneOrMore
deriving DecidableEq, Repr

namespace Quantifier

/-- The character that stands for a quantifier. -/
def char : Quantifier → Char
  | .optional => '?'
  | .zeroOrMore => '*'
  | .oneOrMore => '+'

/-- The quantifier that a character stands for. -/
def ofChar? : Char → Option Quantifier
  | '?' => some .optional
  | '*' => some .zeroOrMore
  | '+' => some .oneOrMore
  | _ => none

/-- Whether more than one occurrence is allowed. -/
def repeats : Quantifier → Bool
  | .optional => false
  | .zeroOrMore | .oneOrMore => true

/-- Whether no occurrence is allowed. -/
def mayBeAbsent : Quantifier → Bool
  | .oneOrMore => false
  | .optional | .zeroOrMore => true

/-- A quantifier or its absence as text. -/
def text : Option Quantifier → List Char
  | none => []
  | some quantifier => [quantifier.char]

theorem eq_char_of_ofChar? {c : Char} {quantifier : Quantifier} (h : ofChar? c = some quantifier) :
    c = quantifier.char := by
  unfold ofChar? at h
  split at h <;> simp_all [char]
  all_goals subst h; rfl

end Quantifier

/-- A token of a pattern. -/
inductive Token where
  /-- A character that stands for itself. -/
  | char (c : Char)
  /-- A character that stands for itself because of a backslash before it. -/
  | escaped (c : Char)
  | modifier (quantifier : Quantifier)
  | openBrace
  | closeBrace
  /-- The name of a parameter, without its colon. -/
  | name (text : List Char)
  /-- A custom expression, without its parentheses. -/
  | pattern (text : List Char)
  /-- The end of the pattern. -/
  | finish
deriving DecidableEq, Repr

/-- The kind of a token. -/
def Token.kind : Token → Kind
  | .char _ => .char
  | .escaped _ => .escaped
  | .modifier _ => .modifier
  | .openBrace => .openBrace
  | .closeBrace => .closeBrace
  | .name _ => .name
  | .pattern _ => .pattern
  | .finish => .finish

/-- What a token stands for: its character, name or expression. -/
def Token.value : Token → List Char
  | .char c | .escaped c => [c]
  | .modifier quantifier => [quantifier.char]
  | .openBrace => ['\x7b']
  | .closeBrace => ['\x7d']
  | .name text | .pattern text => text
  | .finish => []

/-- A token as it is written in a pattern. -/
def Token.write : Token → List Char
  | .char c => [c]
  | .escaped c => ['\\', c]
  | .modifier quantifier => [quantifier.char]
  | .openBrace => ['\x7b']
  | .closeBrace => ['\x7d']
  | .name text => ':' :: text
  | .pattern text => '(' :: text ++ [')']
  | .finish => []

/-- A token and the position of its first character. -/
structure Lexeme where
  token : Token
  index : Nat
deriving DecidableEq, Repr

/-- The characters of parameter names. -/
def isNameChar (c : Char) : Bool :=
  c.isAlphanum || c == '_'

/-- Whether a parenthesis opens a capturing group, judged by the characters after it: unless they
are a question mark that starts neither a named group nor anything but a look-behind. -/
def opensCapture : List Char → Bool
  | '?' :: 'P' :: '<' :: _ => true
  | '?' :: '<' :: '=' :: _ | '?' :: '<' :: '!' :: _ => false
  | '?' :: '<' :: _ => true
  | '?' :: _ => false
  | _ => true

/-- Text that was read, put in front of what is read after it. -/
def prepend (front : List Char) :
    Except Error (List Char × List Char) → Except Error (List Char × List Char)
  | .ok (text, rest) => .ok (front ++ text, rest)
  | .error e => .error e

theorem prepend_eq_ok_iff {front text rest : List Char}
    {found : Except Error (List Char × List Char)} :
    prepend front found = .ok (text, rest) ↔ ∃ inner, found = .ok (inner, rest) ∧ text = front ++ inner := by
  cases found with
  | error e => simp [prepend]
  | ok pair =>
      obtain ⟨inner, after⟩ := pair
      simp only [prepend, Except.ok.injEq, Prod.mk.injEq]
      constructor
      · rintro ⟨rfl, rfl⟩
        exact ⟨inner, ⟨rfl, rfl⟩, rfl⟩
      · rintro ⟨_, ⟨rfl, rfl⟩, rfl⟩
        exact ⟨rfl, rfl⟩

/-- Read a custom expression up to the parenthesis that closes it. `start` is the position of the
opening one, `index` that of the next character, and `depth` the number of nested groups. Gives the
expression and what follows the closing parenthesis. -/
def readGroup (start : Nat) :
    List Char → (index depth : Nat) → Except Error (List Char × List Char)
  | [], _, _ => .error (.unbalanced start)
  | ['\\'], _, _ => .error (.unbalanced start)
  | '\\' :: c :: rest, index, depth => prepend ['\\', c] (readGroup start rest (index + 2) depth)
  | ')' :: rest, _, 0 => .ok ([], rest)
  | ')' :: rest, index, depth + 1 => prepend [')'] (readGroup start rest (index + 1) depth)
  | '(' :: rest, index, depth =>
      if opensCapture rest then .error (.capturingGroup index)
      else prepend ['('] (readGroup start rest (index + 1) (depth + 1))
  | c :: rest, index, depth => prepend [c] (readGroup start rest (index + 1) depth)

/-- A group that is read is what was consumed, with its closing parenthesis. -/
theorem readGroup_eq_ok {start : Nat} {cs : List Char} {index depth : Nat}
    {text rest : List Char} (h : readGroup start cs index depth = .ok (text, rest)) :
    cs = text ++ ')' :: rest := by
  fun_induction readGroup start cs index depth generalizing text rest <;>
    simp only [prepend_eq_ok_iff, reduceCtorEq, Except.ok.injEq, Prod.mk.injEq] at h
  case case4 =>
    obtain ⟨rfl, rfl⟩ := h
    rfl
  all_goals
    obtain ⟨inner, hread, rfl⟩ := h
    rename_i ih
    simp [ih hread]

/-- Read the custom expression after an opening parenthesis at `start`. -/
def readPattern (start : Nat) (cs : List Char) : Except Error (List Char × List Char) :=
  match cs with
  | '?' :: _ => .error (.leadingQuestion (start + 1))
  | cs =>
      match readGroup start cs (start + 1) 0 with
      | .ok ([], _) => .error (.missingPattern start)
      | found => found

/-- A custom expression that is read is what was consumed, with its closing parenthesis. -/
theorem readPattern_eq_ok {start : Nat} {cs text rest : List Char}
    (h : readPattern start cs = .ok (text, rest)) : cs = text ++ ')' :: rest := by
  unfold readPattern at h
  split at h
  · simp at h
  · split at h
    · simp at h
    · exact readGroup_eq_ok h

/-- The tokens of a pattern from a position onwards. -/
def tokenizeFrom (cs : List Char) (index : Nat) : Except Error (List Lexeme) :=
  match cs with
  | [] => .ok [⟨.finish, index⟩]
  | '\\' :: rest =>
      match rest with
      | [] => .error (.danglingEscape index)
      | c :: rest => do return ⟨.escaped c, index⟩ :: (← tokenizeFrom rest (index + 2))
  | '\x7b' :: rest => do return ⟨.openBrace, index⟩ :: (← tokenizeFrom rest (index + 1))
  | '\x7d' :: rest => do return ⟨.closeBrace, index⟩ :: (← tokenizeFrom rest (index + 1))
  | ':' :: rest =>
      let text := rest.takeWhile isNameChar
      if text.isEmpty then .error (.missingName index)
      else do
        return ⟨.name text, index⟩ ::
          (← tokenizeFrom (rest.dropWhile isNameChar) (index + 1 + text.length))
  | ')' :: _ => .error (.unbalanced index)
  | '(' :: cs =>
      match h : readPattern index cs with
      | .error e => .error e
      | .ok (text, rest) => do
          return ⟨.pattern text, index⟩ :: (← tokenizeFrom rest (index + text.length + 2))
  | c :: rest => do
      let token := match Quantifier.ofChar? c with
        | some quantifier => .modifier quantifier
        | none => .char c
      return ⟨token, index⟩ :: (← tokenizeFrom rest (index + 1))
termination_by cs.length
decreasing_by
  · exact Nat.lt_succ_of_lt (Nat.lt_succ_self _)
  · exact Nat.lt_succ_self _
  · exact Nat.lt_succ_self _
  · exact Nat.lt_succ_of_le (List.dropWhile_sublist _).length_le
  · rw [readPattern_eq_ok h]
    simp only [List.length_cons, List.length_append]
    omega
  · exact Nat.lt_succ_self _

/-- The tokens of a pattern. -/
def tokenize (pattern : List Char) : Except Error (List Lexeme) :=
  tokenizeFrom pattern 0

end Waymark.Pattern
