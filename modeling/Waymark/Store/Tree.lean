import Waymark.Json.Value
import Waymark.Store.Error
import Waymark.Store.Path
/-!
Reading, writing and removing along the segments of a path.

Objects are entered by key and arrays by index. A read is absent where a segment is missing; a
write creates what is missing and replaces what cannot be entered.
-/

namespace Waymark.Store

open Waymark.Json

/-- What stands directly below a tree under a segment. -/
def child? (tree : Value) (segment : String) : Option Value :=
  match tree with
  | .object fields => Dict.get? fields segment
  | .array items => do items[← index? segment]?
  | _ => none

/-- What stands below a tree along segments. -/
def lookup (tree : Value) (path : List String) : Option Value :=
  path.foldlM child? tree

/-- Items up to an index, with nulls for those that are missing. -/
def padTo (items : List Value) (index : Nat) : List Value :=
  items ++ List.replicate (index + 1 - items.length) .null

/-- The tree that has a value along segments. An array is entered by index and padded up to it; what
is neither an array nor an object gives way to an object. -/
def put (value : Value) : Value → List String → Except Error Value
  | _, [] => .ok value
  | .array items, segment :: rest =>
      match index? segment with
      | none => .error (.assertion (.segmentIsIndex segment))
      | some index => do
          let items := padTo items index
          return .array (items.set index (← put value (items.getD index .null) rest))
  | .object fields, segment :: rest => do
      let below ← put value ((Dict.get? fields segment).getD .null) rest
      return .object (Dict.insert fields segment below)
  | _, segment :: rest => do
      return .object (Dict.insert [] segment (← put value .null rest))

/-- Write a value into a tree along segments, segment by segment: the answer, and what has become of
the tree. What is missing on the way is there before the walk goes on, so it stays when the walk
fails. -/
def putInPlace (value : Value) : Value → List String → Except Error Unit × Value
  | _, [] => (.ok (), value)
  | .array items, segment :: rest =>
      match index? segment with
      | none => (.error (.assertion (.segmentIsIndex segment)), .array items)
      | some index =>
          let items := padTo items index
          let (answer, below) := putInPlace value (items.getD index .null) rest
          (answer, .array (items.set index below))
  | .object fields, segment :: rest =>
      let (answer, below) := putInPlace value ((Dict.get? fields segment).getD .null) rest
      (answer, .object (Dict.insert fields segment below))
  | _, segment :: rest =>
      let (answer, below) := putInPlace value .null rest
      (answer, .object (Dict.insert [] segment below))

/-- Take what stands below a tree along segments out of it: the removed value, and the tree without
it. The items after a removed item move up. -/
def takeOut (tree : Value) : List String → Option (Value × Value)
  | [] => none
  | [leaf] =>
      match tree with
      | .object fields => do return (← Dict.get? fields leaf, .object (Dict.erase fields leaf))
      | .array items => do
          let index ← index? leaf
          return (← items[index]?, .array (items.eraseIdx index))
      | _ => none
  | segment :: rest =>
      match tree with
      | .object fields => do
          let (removed, below) ← takeOut (← Dict.get? fields segment) rest
          return (removed, .object (Dict.insert fields segment below))
      | .array items => do
          let index ← index? segment
          let (removed, below) ← takeOut (← items[index]?) rest
          return (removed, .array (items.set index below))
      | _ => none

mutual

/-- Merge a tree into another one: objects field by field, arrays by appending, anything else by
taking the new value. -/
def deepMerge : Value → Value → Value
  | .object target, .object source => .object (mergeFields target source)
  | .array target, .array source => .array (target ++ source)
  | _, source => source

/-- Merge fields into others, one by one. -/
def mergeFields (target : Dict Value) : List (String × Value) → Dict Value
  | [] => target
  | (key, value) :: rest =>
      let merged := match Dict.get? target key with
        | some slot => deepMerge slot value
        | none => value
      mergeFields (Dict.insert target key merged) rest

end

/-- Copy the fields of an object over those of another one. Anything but an object is left out. -/
def shallowMerge (target source : Value) : Value :=
  match target, source with
  | .object target, .object source =>
      .object (source.foldl (fun fields (key, value) => Dict.insert fields key value) target)
  | target, _ => target

end Waymark.Store
