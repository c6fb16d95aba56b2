/-!
Dotted paths into trees, and the segments they are read as.

Empty segments do not count, so a path has many spellings; `segments` is what they have in common.
-/

namespace Waymark.Store

/-- The parts of a text between the occurrences of a character. -/
def splitAtChar (separator : Char) : List Char → List (List Char)
  | [] => [[]]
  | c :: rest =>
      if c = separator then [] :: splitAtChar separator rest
      else
        match splitAtChar separator rest with
        | [] => [[c]]
        | part :: parts => (c :: part) :: parts

/-- The segments of a path: its parts between dots, without the empty ones. -/
def segments (path : String) : List String :=
  ((splitAtChar '.' path.toList).filter (· ≠ [])).map String.ofList

/-- A key below a path. -/
def join (path key : String) : String :=
  if path.isEmpty then key else path ++ "." ++ key

/-- Indexes are below this. -/
def indexLimit : Nat := Nat.pow 2 64

/-- The index that a segment is: decimal digits, with a plus sign in front or not. -/
def index? (segment : String) : Option Nat :=
  let digits := match segment.toList with
    | '+' :: rest => rest
    | cs => cs
  if digits.isEmpty || !digits.all Char.isDigit then none
  else
    let value := digits.foldl (fun value c => value * 10 + (c.toNat - 48)) 0
    if value < indexLimit then some value else none

/-- Whether a path is below another one: it starts with the other path and a dot. -/
def isBelow (path above : String) : Bool :=
  (above.toList ++ ['.']).isPrefixOf path.toList

/-- Whether one of two paths is the other or below it. -/
def overlap (left right : String) : Bool :=
  left == right || isBelow left right || isBelow right left

end Waymark.Store
