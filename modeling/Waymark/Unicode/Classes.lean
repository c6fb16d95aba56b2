import Waymark.Unicode.Alphabetic
import Waymark.Unicode.Category
/-!
Classes of characters: the digits, the white space and the characters of words of the Unicode
standard.
-/

namespace Waymark.Unicode

/-- White space, that of ASCII apart. -/
def blanks : List Span :=
  [
    ⟨0x85, 0x85, 1⟩, ⟨0xA0, 0xA0, 1⟩, ⟨0x1680, 0x1680, 1⟩, ⟨0x2000, 0x200A, 1⟩,
    ⟨0x2028, 0x2029, 1⟩, ⟨0x202F, 0x202F, 1⟩, ⟨0x205F, 0x205F, 1⟩, ⟨0x3000, 0x3000, 1⟩
  ]

/-- Whether a character is a decimal digit. -/
def isDigit (c : Char) : Bool :=
  if c.toNat < 128 then c.isDigit else Category.decimalNumber.has c

/-- Whether a character is white space. -/
def isBlank (c : Char) : Bool :=
  if c.toNat < 128 then c == ' ' || (9 ≤ c.toNat && c.toNat ≤ 13)
  else Span.anyContains blanks c.toNat

/-- Whether a character is alphabetic: a letter, a number that looks like one, or what is counted
among the letters. -/
def isAlphabetic (c : Char) : Bool :=
  if c.toNat < 128 then c.isAlpha
  else
    Category.anyHas (.letterNumber :: Category.letters) c ||
      Span.anyContains otherAlphabetic c.toNat

/-- Whether a character is in upper case. -/
def isUppercase (c : Char) : Bool :=
  Category.uppercaseLetter.has c || Span.anyContains otherUppercase c.toNat

/-- Whether a character is in lower case. -/
def isLowercase (c : Char) : Bool :=
  Category.lowercaseLetter.has c || Span.anyContains otherLowercase c.toNat

/-- Whether a character joins those beside it without being seen. -/
def isJoiner (c : Char) : Bool :=
  c.toNat = 0x200C || c.toNat = 0x200D

/-- Whether a character can be part of a word: an alphabetic character, a mark, a digit, a connector
or a joiner. -/
def isWord (c : Char) : Bool :=
  if c.toNat < 128 then c.isAlphanum || c == '_'
  else
    isAlphabetic c || isJoiner c ||
      Category.anyHas (.decimalNumber :: .connectorPunctuation :: Category.marks) c

/-- A text without the white space at its ends. -/
def trim (text : String) : String :=
  String.ofList (((text.toList.dropWhile isBlank).reverse.dropWhile isBlank).reverse)

end Waymark.Unicode
