import Waymark.Pattern.Options
import Waymark.Pattern.Token
/-!
The segments of a route pattern.

`parse` gathers tokens into literals, parameters and braced groups. Characters that belong to no
parameter are pending until the next parameter, group or end, and then form one literal.
-/

namespace Waymark.Pattern

/-- What a parameter is called. Parameters without a name are numbered from zero. -/
inductive KeyName where
  | named (text : List Char)
  | position (index : Nat)
deriving DecidableEq, Repr

/-- The name under which the value of a parameter is found. -/
def KeyName.text : KeyName → String
  | .named text => String.ofList text
  | .position index => toString index

/-- A parameter: the text before and after each of its values, and the expression of one value. -/
structure Key where
  name : KeyName
  before : List Char
  after : List Char
  pattern : List Char
  quantifier : Option Quantifier
deriving DecidableEq, Repr

/-- Whether a parameter may have more than one value. -/
def Key.repeats (key : Key) : Bool :=
  key.quantifier.any Quantifier.repeats

/-- Whether a parameter may have no value. -/
def Key.mayBeAbsent (key : Key) : Bool :=
  key.quantifier.any Quantifier.mayBeAbsent

/-- A piece of a route pattern. -/
inductive Segment where
  | literal (text : List Char)
  | key (key : Key)
  /-- Braces with neither a name nor an expression. -/
  | group (before after : List Char) (quantifier : Option Quantifier)
deriving DecidableEq, Repr

namespace Segment

/-- The parameters among segments, in order. -/
def keys (segments : List Segment) : List Key :=
  segments.filterMap fun
    | .key found => some found
    | _ => none

/-- Pending characters as a literal, if there are any. -/
def flush : List Char → List Segment
  | [] => []
  | pending => [.literal pending]

/-- The character at the front, if one is. -/
def takeChar : List Lexeme → Option Char × List Lexeme
  | ⟨.char c, _⟩ :: rest => (some c, rest)
  | lexemes => (none, lexemes)

/-- The name at the front, if one is. -/
def takeName : List Lexeme → Option (List Char) × List Lexeme
  | ⟨.name text, _⟩ :: rest => (some text, rest)
  | lexemes => (none, lexemes)

/-- The custom expression at the front, if one is. -/
def takePattern : List Lexeme → Option (List Char) × List Lexeme
  | ⟨.pattern text, _⟩ :: rest => (some text, rest)
  | lexemes => (none, lexemes)

/-- The quantifier at the front, if one is. -/
def takeQuantifier : List Lexeme → Option Quantifier × List Lexeme
  | ⟨.modifier quantifier, _⟩ :: rest => (some quantifier, rest)
  | lexemes => (none, lexemes)

/-- The characters at the front, escaped or not. -/
def takeText : List Lexeme → List Char × List Lexeme
  | ⟨.char c, _⟩ :: rest | ⟨.escaped c, _⟩ :: rest =>
      let (text, rest) := takeText rest
      (c :: text, rest)
  | lexemes => ([], lexemes)

theorem length_takeChar_le (lexemes : List Lexeme) :
    (takeChar lexemes).2.length ≤ lexemes.length := by
  unfold takeChar
  split <;> simp

theorem length_takeName_le (lexemes : List Lexeme) :
    (takeName lexemes).2.length ≤ lexemes.length := by
  unfold takeName
  split <;> simp

theorem length_takeName_lt {lexemes : List Lexeme} (h : (takeName lexemes).1.isSome) :
    (takeName lexemes).2.length < lexemes.length := by
  unfold takeName at *
  split <;> simp_all

theorem length_takePattern_le (lexemes : List Lexeme) :
    (takePattern lexemes).2.length ≤ lexemes.length := by
  unfold takePattern
  split <;> simp

theorem length_takePattern_lt {lexemes : List Lexeme} (h : (takePattern lexemes).1.isSome) :
    (takePattern lexemes).2.length < lexemes.length := by
  unfold takePattern at *
  split <;> simp_all

theorem length_takeQuantifier_le (lexemes : List Lexeme) :
    (takeQuantifier lexemes).2.length ≤ lexemes.length := by
  unfold takeQuantifier
  split <;> simp

theorem length_takeText_le (lexemes : List Lexeme) :
    (takeText lexemes).2.length ≤ lexemes.length := by
  fun_induction takeText lexemes <;> simp_all <;> omega

/-- A token where another kind of token was expected. -/
def unexpected (lexemes : List Lexeme) (expected : Kind) : Error :=
  match lexemes with
  | lexeme :: _ => .unexpectedToken lexeme.token.kind lexeme.index expected
  | [] => .unexpectedToken .finish 0 expected

/-- The inside of braces, after the opening one: text, a name, a custom expression, text, the
closing brace and a quantifier. `next` is the number of the next parameter without a name; the
result has the number after it and the remaining tokens. -/
def braced (options : Options) (lexemes : List Lexeme) (next : Nat) :
    Except Error (Segment × Nat × List Lexeme) :=
  let (before, lexemes) := takeText lexemes
  let (name, lexemes) := takeName lexemes
  let (custom, lexemes) := takePattern lexemes
  let (after, lexemes) := takeText lexemes
  match lexemes with
  | ⟨.closeBrace, _⟩ :: rest =>
      let (quantifier, rest) := takeQuantifier rest
      match name, custom with
      | none, none => .ok (.group before after quantifier, next, rest)
      | some text, custom =>
          let pattern := custom.getD options.defaultPattern
          .ok (.key ⟨.named text, before, after, pattern, quantifier⟩, next, rest)
      | none, some pattern =>
          .ok (.key ⟨.position next, before, after, pattern, quantifier⟩, next + 1, rest)
  | lexemes => .error (unexpected lexemes .closeBrace)

theorem length_lt_of_braced {options : Options} {lexemes : List Lexeme} {next : Nat}
    {segment : Segment} {number : Nat} {rest : List Lexeme}
    (h : braced options lexemes next = .ok (segment, number, rest)) :
    rest.length < lexemes.length := by
  have hbefore := length_takeText_le lexemes
  have hname := length_takeName_le (takeText lexemes).2
  have hcustom := length_takePattern_le (takeName (takeText lexemes).2).2
  have hafter := length_takeText_le (takePattern (takeName (takeText lexemes).2).2).2
  simp only [braced] at h
  split at h
  · next i close heq =>
    have hclose := congrArg List.length heq
    have hquantifier := length_takeQuantifier_le close
    simp only [List.length_cons] at hclose
    split at h <;>
      · simp only [Except.ok.injEq, Prod.mk.injEq] at h
        obtain ⟨-, -, rfl⟩ := h
        omega
  · simp at h

/-- The segments of a pattern's remaining tokens. `pending` are the characters that wait for the
end of a literal, and `next` is the number of the next parameter without a name. -/
def ofLexemes (options : Options) (lexemes : List Lexeme) (pending : List Char) (next : Nat) :
    Except Error (List Segment) :=
  let char := takeChar lexemes
  let name := takeName char.2
  let custom := takePattern name.2
  if _hkey : name.1.isSome ∨ custom.1.isSome then
    let taken := char.1.toList
    let absorbs := taken.all options.prefixes.contains
    let keyName := match name.1 with
      | some text => KeyName.named text
      | none => .position next
    let quantifier := takeQuantifier custom.2
    let key : Key :=
      { name := keyName
        before := if absorbs then taken else []
        after := []
        pattern := custom.1.getD options.defaultPattern
        quantifier := quantifier.1 }
    do
      let segments ← ofLexemes options quantifier.2 [] (if name.1.isSome then next else next + 1)
      return flush (if absorbs then pending else pending ++ taken) ++ .key key :: segments
  else
    match lexemes with
    | ⟨.char c, _⟩ :: rest => ofLexemes options rest (pending ++ [c]) next
    | ⟨.escaped c, _⟩ :: rest => ofLexemes options rest (pending ++ [c]) next
    | ⟨.openBrace, _⟩ :: rest =>
        match _hbraced : braced options rest next with
        | .error e => .error e
        | .ok (segment, next, rest) => do
            return flush pending ++ segment :: (← ofLexemes options rest [] next)
    | ⟨.finish, _⟩ :: rest => do return flush pending ++ (← ofLexemes options rest [] next)
    | [] => .ok (flush pending)
    | lexemes => .error (unexpected lexemes .finish)
termination_by lexemes.length
decreasing_by
  · have hchar := length_takeChar_le lexemes
    have hname := length_takeName_le (takeChar lexemes).2
    have hcustom := length_takePattern_le (takeName (takeChar lexemes).2).2
    have hquantifier := length_takeQuantifier_le (takePattern (takeName (takeChar lexemes).2).2).2
    rcases _hkey with h | h
    · have : (takeName (takeChar lexemes).2).2.length < (takeChar lexemes).2.length :=
        length_takeName_lt h
      omega
    · have : (takePattern (takeName (takeChar lexemes).2).2).2.length <
          (takeName (takeChar lexemes).2).2.length := length_takePattern_lt h
      omega
  · exact Nat.lt_succ_self _
  · exact Nat.lt_succ_self _
  · exact Nat.lt_succ_of_lt (length_lt_of_braced _hbraced)
  · exact Nat.lt_succ_self _

end Segment

/-- The segments of a pattern. -/
def parse (pattern : List Char) (options : Options) : Except Error (List Segment) := do
  Segment.ofLexemes options (← tokenize pattern) [] 0

end Waymark.Pattern
