import Waymark.Dict
import Waymark.Url.Percent
import Waymark.Url.Split
/-!
Fields written in a query: `name=value` pieces between ampersands.

In a name or a value a plus sign is a space and octets may be escaped; what the octets say is read
as text, a replacement character standing for each fault.
-/

namespace Waymark.Url.Form

/-- Read a name or a value. -/
def decode (cs : List Char) : String :=
  String.ofList <| Unicode.Utf8.decodeLossy <| Percent.decode <|
    cs.map fun c => if c = '+' then ' ' else c

/-- Read a piece: what stands before the first equals sign is the name, what follows it the value. -/
def entry (piece : List Char) : String × String :=
  (decode (piece.takeWhile (· ≠ '=')), decode ((piece.dropWhile (· ≠ '=')).drop 1))

/-- The fields of a query in order, empty pieces left out. -/
def entries (query : List Char) : List (String × String) :=
  ((split (· = '&') query).filter (· ≠ [])).map entry

/-- The fields of a query by name. Of several with one name the last counts. -/
def fields (query : String) : Dict String :=
  Dict.ofList (entries query.toList)

end Waymark.Url.Form
