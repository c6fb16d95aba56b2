import Waymark.Pattern.Segment
/-!
The regular expression of a route pattern, as text.

Literals are escaped, each parameter has one capturing group around its values, and the end of the
expression depends on the options: the end of the path, a character that may end a match, or the
boundary of a segment.
-/

namespace Waymark.Pattern

/-- Text in a group that captures nothing. -/
def enclose (text : List Char) : List Char :=
  ['(', '?', ':'] ++ text ++ [')']

/-- Text in a group that captures. -/
def captured (text : List Char) : List Char :=
  '(' :: text ++ [')']

/-- A condition on what follows. -/
def lookahead (text : List Char) : List Char :=
  ['(', '?', '='] ++ text ++ [')']

/-- The expression of a parameter. Of repeated values with text between them, the group captures
the first to the last. -/
def Key.expression (key : Key) : List Char :=
  let before := escape key.before
  let after := escape key.after
  let quantifier := Quantifier.text key.quantifier
  if key.before.isEmpty && key.after.isEmpty then
    if key.repeats then captured (enclose key.pattern ++ quantifier)
    else captured key.pattern ++ quantifier
  else if key.repeats then
    let further := enclose (after ++ before ++ enclose key.pattern) ++ ['*']
    enclose (before ++ captured (enclose key.pattern ++ further) ++ after) ++
      (if key.mayBeAbsent then ['?'] else [])
  else enclose (before ++ captured key.pattern ++ after) ++ quantifier

/-- The expression of a segment. -/
def Segment.expression : Segment → List Char
  | .literal text => escape text
  | .key parameter => parameter.expression
  | .group before after quantifier =>
      enclose (escape before ++ escape after) ++ Quantifier.text quantifier

/-- What may end a match: the end of the path, or one of the characters for it. -/
def Options.terminator (options : Options) : List Char :=
  if options.endsWith.isEmpty then ['$'] else classOf options.endsWith ++ ['|', '$']

/-- Whether the segments end at a delimiter, so that nothing has to follow them. -/
def endsDelimited (segments : List Segment) (options : Options) : Bool :=
  match segments.getLast? with
  | none => true
  | some (.literal text) => text.getLast?.any options.delimiter.contains
  | some _ => false

/-- The end of the expression of a pattern. -/
def tailExpression (segments : List Segment) (options : Options) : List Char :=
  let delimited := !options.delimiter.isEmpty
  let delimiter := classOf options.delimiter
  if options.atEnd then
    (if delimited && !options.strict then delimiter ++ ['?'] else []) ++
      (if options.endsWith.isEmpty then ['$'] else lookahead options.terminator)
  else
    (if delimited && !options.strict then
      enclose (delimiter ++ lookahead options.terminator) ++ ['?'] else []) ++
      (if endsDelimited segments options then []
        else lookahead ((if delimited then delimiter ++ ['|'] else []) ++ options.terminator))

/-- The expression of segments under options, without regard to case left apart. -/
def expression (segments : List Segment) (options : Options) : List Char :=
  (if options.atStart then ['^'] else []) ++ segments.flatMap Segment.expression ++
    tailExpression segments options

/-- An expression with the switch for case. -/
def withCase (options : Options) (text : List Char) : List Char :=
  if options.sensitive then text else ['(', '?', 'i', ')'] ++ text

/-- Several expressions as alternatives. -/
def alternatives (expressions : List (List Char)) : List Char :=
  enclose (List.intercalate ['|'] expressions)

end Waymark.Pattern
