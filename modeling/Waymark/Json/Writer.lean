import Waymark.Json.Value
/-!
Documents as compact text: no blanks, fields in the order they are held, and in strings an escape
for the quote, the backslash and the control characters below U+0020, and for nothing else.
-/

namespace Waymark.Json

/-- A digit of base sixteen, in lower case. -/
def hexDigit (value : Nat) : Char :=
  if value < 10 then Char.ofNat (48 + value) else Char.ofNat (87 + value)

/-- How a character is written inside a string. -/
def escapeChar (c : Char) : List Char :=
  match c with
  | '"' => ['\\', '"']
  | '\\' => ['\\', '\\']
  | '\x08' => ['\\', 'b']
  | '\x0c' => ['\\', 'f']
  | '\n' => ['\\', 'n']
  | '\r' => ['\\', 'r']
  | '\t' => ['\\', 't']
  | c =>
      if c.toNat < 0x20 then
        ['\\', 'u', '0', '0', hexDigit (c.toNat / 16), hexDigit (c.toNat % 16)]
      else [c]

/-- A string with its quotes. -/
def quote (text : String) : List Char :=
  '"' :: text.toList.flatMap escapeChar ++ ['"']

/-- The text of a number. -/
def Number.render : Number → List Char
  | .integer value => (toString value).toList
  | .real value => (value.render Binary64.plain).toList

namespace Value

mutual

/-- The characters of a document. -/
def chars : Value → List Char
  | .null => ['n', 'u', 'l', 'l']
  | .bool true => ['t', 'r', 'u', 'e']
  | .bool false => ['f', 'a', 'l', 's', 'e']
  | .number value => value.render
  | .string text => quote text
  | .array [] => ['[', ']']
  | .array (item :: rest) => '[' :: chars item ++ moreItems rest ++ [']']
  | .object [] => ['\x7b', '\x7d']
  | .object ((name, value) :: rest) =>
      '\x7b' :: quote name ++ ':' :: chars value ++ moreFields rest ++ ['\x7d']

/-- The characters of the items after the first. -/
def moreItems : List Value → List Char
  | [] => []
  | item :: rest => ',' :: chars item ++ moreItems rest

/-- The characters of the fields after the first. -/
def moreFields : List (String × Value) → List Char
  | [] => []
  | (name, value) :: rest => ',' :: quote name ++ ':' :: chars value ++ moreFields rest

end

/-- The text of a document. -/
def render (value : Value) : String :=
  String.ofList value.chars

end Value

end Waymark.Json
