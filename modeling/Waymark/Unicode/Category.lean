import Waymark.Unicode.Category.Letter
import Waymark.Unicode.Category.Mark
import Waymark.Unicode.Category.Number
import Waymark.Unicode.Category.Punctuation
import Waymark.Unicode.Category.Symbol
/-!
General categories: what kind of character a character is. A character has one category.
-/

namespace Waymark.Unicode

/-- A general category. -/
inductive Category where
  | uppercaseLetter
  | lowercaseLetter
  | titlecaseLetter
  | modifierLetter
  | otherLetter
  | nonspacingMark
  | spacingMark
  | enclosingMark
  | decimalNumber
  | letterNumber
  | otherNumber
  | connectorPunctuation
  | dashPunctuation
  | openPunctuation
  | closePunctuation
  | initialPunctuation
  | finalPunctuation
  | otherPunctuation
  | mathSymbol
  | currencySymbol
  | modifierSymbol
  | otherSymbol
  | spaceSeparator
  | lineSeparator
  | paragraphSeparator
  | control
  | format
  | privateUse
  | unassigned
deriving DecidableEq, Repr

/-- Characters that control the layout of text. -/
def formatCharacters : List Span :=
  [
    ⟨0xAD, 0xAD, 1⟩, ⟨0x600, 0x605, 1⟩, ⟨0x61C, 0x61C, 1⟩, ⟨0x6DD, 0x6DD, 1⟩, ⟨0x70F, 0x70F, 1⟩,
    ⟨0x890, 0x891, 1⟩, ⟨0x8E2, 0x8E2, 1⟩, ⟨0x180E, 0x180E, 1⟩, ⟨0x200B, 0x200F, 1⟩,
    ⟨0x202A, 0x202E, 1⟩, ⟨0x2060, 0x2064, 1⟩, ⟨0x2066, 0x206F, 1⟩, ⟨0xFEFF, 0xFEFF, 1⟩,
    ⟨0xFFF9, 0xFFFB, 1⟩, ⟨0x110BD, 0x110BD, 1⟩, ⟨0x110CD, 0x110CD, 1⟩, ⟨0x13430, 0x1343F, 1⟩,
    ⟨0x1BCA0, 0x1BCA3, 1⟩, ⟨0x1D173, 0x1D17A, 1⟩, ⟨0xE0001, 0xE0001, 1⟩, ⟨0xE0020, 0xE007F, 1⟩
  ]

namespace Category

/-- The characters of a category. What is in no other category is unassigned. -/
def spans : Category → List Span
  | uppercaseLetter => uppercaseLetters
  | lowercaseLetter => lowercaseLetters
  | titlecaseLetter => titlecaseLetters
  | modifierLetter => modifierLetters
  | otherLetter => otherLetters
  | nonspacingMark => nonspacingMarks
  | spacingMark => spacingMarks
  | enclosingMark => enclosingMarks
  | decimalNumber => decimalNumbers
  | letterNumber => letterNumbers
  | otherNumber => otherNumbers
  | connectorPunctuation => connectors
  | dashPunctuation => dashes
  | openPunctuation => openingPunctuation
  | closePunctuation => closingPunctuation
  | initialPunctuation => initialQuotes
  | finalPunctuation => finalQuotes
  | otherPunctuation => Unicode.otherPunctuation
  | mathSymbol => mathSymbols
  | currencySymbol => currencySymbols
  | modifierSymbol => modifierSymbols
  | otherSymbol => otherSymbols
  | spaceSeparator =>
      [⟨0x20, 0x20, 1⟩, ⟨0xA0, 0xA0, 1⟩, ⟨0x1680, 0x1680, 1⟩, ⟨0x2000, 0x200A, 1⟩,
        ⟨0x202F, 0x202F, 1⟩, ⟨0x205F, 0x205F, 1⟩, ⟨0x3000, 0x3000, 1⟩]
  | lineSeparator => [⟨0x2028, 0x2028, 1⟩]
  | paragraphSeparator => [⟨0x2029, 0x2029, 1⟩]
  | control => [⟨0x0, 0x1F, 1⟩, ⟨0x7F, 0x9F, 1⟩]
  | format => formatCharacters
  | privateUse => [⟨0xE000, 0xF8FF, 1⟩, ⟨0xF0000, 0xFFFFD, 1⟩, ⟨0x100000, 0x10FFFD, 1⟩]
  | unassigned => []

/-- Letters. -/
def letters : List Category :=
  [uppercaseLetter, lowercaseLetter, titlecaseLetter, modifierLetter, otherLetter]

/-- Letters that have a case. -/
def casedLetters : List Category :=
  [uppercaseLetter, lowercaseLetter, titlecaseLetter]

/-- Marks. -/
def marks : List Category :=
  [nonspacingMark, spacingMark, enclosingMark]

/-- Numbers. -/
def numbers : List Category :=
  [decimalNumber, letterNumber, otherNumber]

/-- Punctuation. -/
def punctuation : List Category :=
  [connectorPunctuation, dashPunctuation, openPunctuation, closePunctuation, initialPunctuation,
    finalPunctuation, otherPunctuation]

/-- Symbols. -/
def symbols : List Category :=
  [mathSymbol, currencySymbol, modifierSymbol, otherSymbol]

/-- Separators. -/
def separators : List Category :=
  [spaceSeparator, lineSeparator, paragraphSeparator]

/-- All categories but that of what is in no other. -/
def assigned : List Category :=
  letters ++ marks ++ numbers ++ punctuation ++ symbols ++ separators ++
    [control, format, privateUse]

/-- Whether a character is of one of some categories. -/
def anyHas (categories : List Category) (c : Char) : Bool :=
  categories.any fun category => Span.anyContains category.spans c.toNat

/-- Whether a character is of a category. -/
def has (category : Category) (c : Char) : Bool :=
  match category with
  | unassigned => !anyHas assigned c
  | category => Span.anyContains category.spans c.toNat

end Category

end Waymark.Unicode
