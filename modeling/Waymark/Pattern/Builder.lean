import Waymark.Pattern.Matcher
/-!
Building paths from route patterns: the inverse of matching.

Parameter values are put into the segments of a pattern, each with the text before and after it.
Unless checking is off, each value has to match the expression of its parameter as a whole.
-/

namespace Waymark.Pattern

/-- Why no path can be built. -/
inductive BuildError where
  /-- A parameter has no value, though one or a list is required. -/
  | missing (name : String) (repeats : Bool)
  /-- A value does not match the expression of its parameter. -/
  | invalid (name pattern value : String)
  /-- A parameter that has to have a value has none in its list. -/
  | emptyRepeat (name : String)
  /-- A list where one value is expected. -/
  | unexpectedRepeat (name : String)
deriving DecidableEq, Repr

/-- The wording of an error. -/
def BuildError.message : BuildError → String
  | .missing name repeats =>
      "Expected \"" ++ name ++ "\" to be " ++ (if repeats then "a list" else "a string")
  | .invalid name pattern value =>
      "Expected \"" ++ name ++ "\" to match \"" ++ pattern ++ "\", got \"" ++ value ++ "\""
  | .emptyRepeat name => "Expected \"" ++ name ++ "\" to not be empty"
  | .unexpectedRepeat name => "Expected \"" ++ name ++ "\" to not repeat"

/-- A segment, with the expression that values of its parameter have to match. -/
structure Part where
  segment : Segment
  validator : Option Regex
deriving Repr

/-- A pattern that paths are built from. -/
structure PathBuilder where
  parts : List Part
  validates : Bool
deriving Repr

/-- The expression that a value of a parameter has to match as a whole. -/
def Key.validator? (options : Options) (key : Key) : Option Regex :=
  Regex.compile? (withCase options ('^' :: enclose key.pattern ++ ['$']))

/-- Prepare a segment. -/
def Part.ofSegment (options : Options) (segment : Segment) : Except Error Part :=
  match segment with
  | .key parameter =>
      match parameter.validator? options with
      | some validator => .ok ⟨segment, some validator⟩
      | none => .error .badExpression
  | _ => .ok ⟨segment, none⟩

/-- Check a value of a parameter and give it with the text around it. -/
def Key.fill (key : Key) (validator : Option Regex) (value : String) :
    Except BuildError (List Char) :=
  if validator.all fun regex => regex.isMatch value.toList.toArray then
    .ok (key.before ++ value.toList ++ key.after)
  else .error (.invalid key.name.text (String.ofList key.pattern) value)

/-- The text of a part for given parameters. -/
def Part.build (part : Part) (validates : Bool) (params : Params) :
    Except BuildError (List Char) :=
  match part.segment with
  | .literal text => .ok text
  | .group before after quantifier =>
      .ok (if quantifier.any Quantifier.mayBeAbsent then [] else before ++ after)
  | .key key =>
      let name := key.name.text
      let validator := if validates then part.validator else none
      match params.value? name with
      | some (.repeated values) =>
          if !key.repeats then .error (.unexpectedRepeat name)
          else if values.isEmpty then
            if key.mayBeAbsent then .ok [] else .error (.emptyRepeat name)
          else do return (← values.mapM (key.fill validator)).flatten
      | some (.single value) => key.fill validator value
      | none => if key.mayBeAbsent then .ok [] else .error (.missing name key.repeats)

namespace PathBuilder

/-- Prepare a pattern for building. -/
def compile (options : Options) (pattern : List Char) : Except Error PathBuilder := do
  let segments ← parse pattern options
  return ⟨← segments.mapM (Part.ofSegment options), true⟩

/-- The segments of the pattern. -/
def segments (builder : PathBuilder) : List Segment :=
  builder.parts.map Part.segment

/-- The same pattern with values taken as they are. -/
def withoutValidation (builder : PathBuilder) : PathBuilder :=
  { builder with validates := false }

/-- Build a path. The first part that cannot be built decides. -/
def build (builder : PathBuilder) (params : Params) : Except BuildError String := do
  let texts ← builder.parts.mapM fun part => part.build builder.validates params
  return String.ofList texts.flatten

end PathBuilder

end Waymark.Pattern
