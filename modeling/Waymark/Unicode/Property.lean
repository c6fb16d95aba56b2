import Waymark.Unicode.Classes
import Waymark.Unicode.Script
/-!
Properties of characters that can be asked for by name: general categories, alone or in groups,
scripts, and some others.

Names are compared without regard to case, spaces, hyphens and underscores, and to a leading `is`.
-/

namespace Waymark.Unicode

/-- A property of characters. -/
inductive Property where
  | any
  | ascii
  | assigned
  | alphabetic
  | uppercase
  | lowercase
  | blank
  | category (categories : List Category)
  | unassigned
  /-- What is of no category that is a matter of text: controls, formats and the unassigned. -/
  | other
  | script (which : Script)
deriving DecidableEq, Repr

namespace Property

/-- Whether a character has a property. -/
def holds : Property → Char → Bool
  | any, _ => true
  | ascii, c => c.toNat < 128
  | assigned, c => !Category.unassigned.has c
  | alphabetic, c => isAlphabetic c
  | uppercase, c => isUppercase c
  | lowercase, c => isLowercase c
  | blank, c => isBlank c
  | category categories, c => Category.anyHas categories c
  | unassigned, c => Category.unassigned.has c
  | other, c => Category.anyHas [.control, .format, .privateUse] c || Category.unassigned.has c
  | script which, c => Span.anyContains which.spans c.toNat

/-- A name as names are compared. -/
def normalized (name : List Char) : List Char :=
  let letters := (name.filter fun c => !(c == ' ' || c == '-' || c == '_')).map Char.toLower
  match letters with
  | 'i' :: 's' :: rest => rest
  | letters => letters

/-- The categories and groups of categories of a name. -/
def ofCategoryName? : String → Option Property
  | "l" | "letter" => some (category Category.letters)
  | "lc" | "casedletter" => some (category Category.casedLetters)
  | "lu" | "uppercaseletter" => some (category [.uppercaseLetter])
  | "ll" | "lowercaseletter" => some (category [.lowercaseLetter])
  | "lt" | "titlecaseletter" => some (category [.titlecaseLetter])
  | "lm" | "modifierletter" => some (category [.modifierLetter])
  | "lo" | "otherletter" => some (category [.otherLetter])
  | "m" | "mark" | "combiningmark" => some (category Category.marks)
  | "mn" | "nonspacingmark" => some (category [.nonspacingMark])
  | "mc" | "spacingmark" => some (category [.spacingMark])
  | "me" | "enclosingmark" => some (category [.enclosingMark])
  | "n" | "number" => some (category Category.numbers)
  | "nd" | "decimalnumber" | "digit" => some (category [.decimalNumber])
  | "nl" | "letternumber" => some (category [.letterNumber])
  | "no" | "othernumber" => some (category [.otherNumber])
  | "p" | "punctuation" | "punct" => some (category Category.punctuation)
  | "pc" | "connectorpunctuation" => some (category [.connectorPunctuation])
  | "pd" | "dashpunctuation" => some (category [.dashPunctuation])
  | "ps" | "openpunctuation" => some (category [.openPunctuation])
  | "pe" | "closepunctuation" => some (category [.closePunctuation])
  | "pi" | "initialpunctuation" => some (category [.initialPunctuation])
  | "pf" | "finalpunctuation" => some (category [.finalPunctuation])
  | "po" | "otherpunctuation" => some (category [.otherPunctuation])
  | "s" | "symbol" => some (category Category.symbols)
  | "sm" | "mathsymbol" => some (category [.mathSymbol])
  | "sc" | "currencysymbol" => some (category [.currencySymbol])
  | "sk" | "modifiersymbol" => some (category [.modifierSymbol])
  | "so" | "othersymbol" => some (category [.otherSymbol])
  | "z" | "separator" => some (category Category.separators)
  | "zs" | "spaceseparator" => some (category [.spaceSeparator])
  | "zl" | "lineseparator" => some (category [.lineSeparator])
  | "zp" | "paragraphseparator" => some (category [.paragraphSeparator])
  | "c" | "other" => some other
  | "cc" | "control" | "cntrl" => some (category [.control])
  | "cf" | "format" => some (category [.format])
  | "co" | "privateuse" => some (category [.privateUse])
  | "cn" | "unassigned" => some unassigned
  | "any" => some any
  | "ascii" => some ascii
  | "assigned" => some assigned
  | _ => none

/-- The property of a single letter. -/
def ofLetter? (c : Char) : Option Property :=
  ofCategoryName? (String.ofList (normalized [c]))

/-- The property of a name that stands alone. -/
def ofPlainName? (name : String) : Option Property :=
  match name with
  | "alphabetic" | "alpha" => some alphabetic
  | "uppercase" | "upper" => some uppercase
  | "lowercase" | "lower" => some lowercase
  | "whitespace" | "wspace" | "space" => some blank
  | name => (ofCategoryName? name).or ((Script.ofName? name).map script)

/-- The property of a name, or of the name of a kind of property and a value with an equals sign or
a colon between them. -/
def ofName? (name : List Char) : Option Property :=
  let isSign (c : Char) : Bool := c == '=' || c == ':'
  let front := String.ofList (normalized (name.takeWhile fun c => !isSign c))
  match name.dropWhile fun c => !isSign c with
  | [] => ofPlainName? front
  | _ :: value =>
      let value := String.ofList (normalized value)
      match front with
      | "gc" | "generalcategory" => ofCategoryName? value
      | "sc" | "script" => (Script.ofName? value).map script
      | _ => none

end Property

end Waymark.Unicode
