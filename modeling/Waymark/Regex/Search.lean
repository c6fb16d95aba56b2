import Waymark.Regex.Assembly
import Waymark.Regex.Effort
/-!
Searching a text for an expression: the first position where it matches, and there the preferred
outcome.
-/

namespace Waymark.Regex

/-- A match: where it begins and ends, and the groups in it. -/
structure Match where
  first : Nat
  last : Nat
  state : State
deriving Repr

/-- The match that begins at a position. -/
def Expr.matchAt? (expr : Expr) (text : Array Char) (position : Nat) : Option Match :=
  (expr.outcomes text expr.hasBackref (.start position)).head?.map fun state =>
    ⟨position, state.position, state⟩

/-- The first match in a text, if the search does not give up before. -/
def find? (regex : Regex) (text : Array Char) : Option Match :=
  if regex.expr.isWithinPatience text then
    (List.range (text.size + 1)).findSome? (regex.expr.matchAt? text)
  else none

/-- Whether an expression matches somewhere in a text. -/
def isMatch (regex : Regex) (text : Array Char) : Bool :=
  (regex.find? text).isSome

/-- The characters between two positions. -/
def slice (text : Array Char) (first last : Nat) : List Char :=
  (text.toList.drop first).take (last - first)

/-- The text of a group, if it took part in the match. -/
def Match.group? (found : Match) (text : Array Char) (group : Nat) : Option (List Char) :=
  (found.state.span? group).map fun (first, last) => slice text first last

end Waymark.Regex
