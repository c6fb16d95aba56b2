/-!
What can be wrong with a route pattern, and how it is said.
-/

namespace Waymark.Pattern

/-- The kinds of tokens in a pattern. -/
inductive Kind where
  | char
  | escaped
  | modifier
  | openBrace
  | closeBrace
  | name
  | pattern
  | finish
deriving DecidableEq, Repr

/-- The name of a kind in messages. -/
def Kind.label : Kind → String
  | .char => "CHAR"
  | .escaped => "ESCAPED_CHAR"
  | .modifier => "MODIFIER"
  | .openBrace => "OPEN"
  | .closeBrace => "CLOSE"
  | .name => "NAME"
  | .pattern => "PATTERN"
  | .finish => "END"

/-- Why a pattern is refused. Positions count characters. -/
inductive Error where
  /-- A colon without a name after it. -/
  | missingName (index : Nat)
  /-- A custom expression that starts with a question mark. -/
  | leadingQuestion (index : Nat)
  /-- A group inside a custom expression that would capture. -/
  | capturingGroup (index : Nat)
  /-- A parenthesis without its partner. -/
  | unbalanced (index : Nat)
  /-- A custom expression without any text. -/
  | missingPattern (index : Nat)
  /-- A backslash with nothing after it. -/
  | danglingEscape (index : Nat)
  /-- A token that cannot stand where it does. -/
  | unexpectedToken (found : Kind) (index : Nat) (expected : Kind)
  /-- The generated expression is not one. -/
  | badExpression
deriving DecidableEq, Repr

/-- The wording of an error. What is wrong with a generated expression is not told. -/
def Error.message : Error → String
  | .missingName index => "Missing parameter name at " ++ toString index
  | .leadingQuestion index => "Pattern cannot start with \"?\" at " ++ toString index
  | .capturingGroup index => "Capturing groups are not allowed at " ++ toString index
  | .unbalanced index => "Unbalanced pattern at " ++ toString index
  | .missingPattern index => "Missing pattern at " ++ toString index
  | .danglingEscape index => "Dangling escape at " ++ toString index
  | .unexpectedToken found index expected =>
      "Unexpected " ++ found.label ++ " at " ++ toString index ++ ", expected " ++ expected.label
  | .badExpression => "Invalid generated expression: "

end Waymark.Pattern
