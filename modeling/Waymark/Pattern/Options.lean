/-!
Options of route patterns, and how text is escaped for an expression.
-/

namespace Waymark.Pattern

/-- How a route pattern is read and how its expression is anchored. -/
structure Options where
  /-- Letters match in their own case only. -/
  sensitive : Bool
  /-- No delimiter may follow the pattern. -/
  strict : Bool
  /-- The match begins where the path begins. -/
  atStart : Bool
  /-- The match ends where the path ends. -/
  atEnd : Bool
  /-- The characters that separate segments. -/
  delimiter : List Char
  /-- Further characters that may end a match. -/
  endsWith : List Char
  /-- The characters that a parameter takes over from the text before it. -/
  prefixes : List Char
deriving DecidableEq, Repr

namespace Options

/-- Whole paths in any case, segments separated by `/`, `#` and `?`, parameters taking over `.` and
`/`. -/
def standard : Options where
  sensitive := false
  strict := false
  atStart := true
  atEnd := true
  delimiter := ['/', '#', '?']
  endsWith := []
  prefixes := ['.', '/']

end Options

/-- The characters with a meaning of their own in an expression. -/
def isMeta (c : Char) : Bool :=
  ['\\', '.', '+', '*', '?', '(', ')', '|', '[', ']', '\x7b', '\x7d', '^', '$', '#', '&', '-',
    '~'].contains c

/-- Text as an expression that matches it: a backslash before each character with a meaning. -/
def escape (text : List Char) : List Char :=
  text.flatMap fun c => if isMeta c then ['\\', c] else [c]

/-- A class of characters as an expression. -/
def classOf (chars : List Char) : List Char :=
  '[' :: escape chars ++ [']']

/-- The expression of a parameter that names none: as little as possible, without a delimiter. -/
def Options.defaultPattern (options : Options) : List Char :=
  if options.delimiter.isEmpty then ['[', '\\', 's', '\\', 'S', ']', '+', '?']
  else ['[', '^'] ++ escape options.delimiter ++ [']', '+', '?']

end Waymark.Pattern
