/-!
Cutting a text into pieces.
-/

namespace Waymark.Url

/-- The pieces between the characters that are separators: one more than there are separators. -/
def split (separator : Char → Bool) : List Char → List (List Char)
  | [] => [[]]
  | c :: rest =>
      if separator c then [] :: split separator rest
      else
        match split separator rest with
        | [] => [[c]]
        | piece :: pieces => (c :: piece) :: pieces

/-- What stands before the last occurrence of a character, and what follows it, if it occurs. -/
def splitLast? (separator : Char) : List Char → Option (List Char × List Char)
  | [] => none
  | c :: rest =>
      match splitLast? separator rest with
      | some (before, after) => some (c :: before, after)
      | none => if c = separator then some ([], rest) else none

end Waymark.Url
