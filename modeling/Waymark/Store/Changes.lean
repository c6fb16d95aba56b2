import Waymark.Store.Tree
/-!
What a write has changed: everything, or the new values of dotted keys.

Changes are found by comparing trees. A change is reported at the leaves: a key stands for a value
that is no object, or an empty one, and a key that is gone stands for null.
-/

namespace Waymark.Store

open Waymark.Json

/-- The changes of a write. -/
inductive Changes where
  | everything
  | keys (values : Dict Value)
deriving Repr, Inhabited

namespace Changes

/-- No change. -/
def none : Changes :=
  .keys []

/-- Whether nothing has changed. -/
def isEmpty : Changes → Bool
  | .everything => false
  | .keys values => values.isEmpty

/-- Whether a change affects a key: the key itself, one below it or one above it has changed. -/
def touches (changes : Changes) (key : String) : Bool :=
  match changes with
  | .everything => true
  | .keys values => values.any fun (changed, _) => overlap changed key

/-- The new value of a key. -/
def get? (changes : Changes) (key : String) : Option Value :=
  match changes with
  | .everything => .none
  | .keys values => Dict.get? values key

/-- Changes as a document: a star for everything. -/
def toValue : Changes → Value
  | .everything => .string "*"
  | .keys values => .object values

end Changes

mutual

/-- Report the leaves of a tree as gone. -/
def removedLeaves (path : String) : Value → Dict Value → Dict Value
  | .object (field :: fields), out => removedFields path (field :: fields) out
  | _, out => Dict.insert out path .null

/-- Report the leaves of fields as gone. -/
def removedFields (path : String) : List (String × Value) → Dict Value → Dict Value
  | [], out => out
  | (key, value) :: rest, out =>
      removedFields path rest (removedLeaves (join path key) value out)

end

/-- Report the leaves of the fields that other fields lack. -/
def lostFields (path : String) (news : Dict Value) (olds : Dict Value) (out : Dict Value) :
    Dict Value :=
  removedFields path (olds.filter fun (key, _) => !Dict.contains news key) out

mutual

/-- Report the leaves in which a new tree differs from an old one, or all of its leaves where there
is no old one. -/
def diff (path : String) (old : Option Value) : Value → Dict Value → Dict Value
  | .object news, out =>
      if old.any (Value.same · (.object news)) then out
      else
        match old, news with
        | some (.object olds), news => lostFields path news olds (diffFields path olds news out)
        | _, [] => Dict.insert out path (.object [])
        | _, news => diffFields path [] news out
  | new, out => if old.any (Value.same · new) then out else Dict.insert out path new

/-- Report the leaves in which new fields differ from old ones of the same key. -/
def diffFields (path : String) (olds : Dict Value) :
    List (String × Value) → Dict Value → Dict Value
  | [], out => out
  | (key, value) :: rest, out =>
      diffFields path olds rest (diff (join path key) (Dict.get? olds key) value out)

end

/-- The changes from one tree to another. -/
def diffTrees (old new : Value) : Changes :=
  .keys (diff "" (some old) new [])

end Waymark.Store
