import Waymark.Store.Changes
/-!
The plain store: a tree with an object at its root, addressed by dotted paths.

Every write gives its answer together with the store after it, also a write that fails.
-/

namespace Waymark

open Waymark.Json

/-- A tree, and whether it may be written to. -/
structure Store where
  tree : Value
  readOnly : Bool
deriving Repr, Inhabited

namespace Store

/-- How a value is set. -/
structure SetOptions where
  /-- The value is merged into the one that is there. -/
  merge : Bool
  /-- Nobody is told of the change. -/
  silent : Bool
deriving DecidableEq, Repr

/-- Overwrite, and tell of the change. -/
def SetOptions.standard : SetOptions :=
  ⟨false, false⟩

/-- The answer of a write and what has been written to. -/
abbrev Written (σ : Type) := Except Error Changes × σ

/-- A writable store without any fields. -/
def empty : Store :=
  ⟨.emptyObject, false⟩

/-- A writable store of a value. What is not an object becomes the only field of one. -/
def ofValue (value : Value) : Store :=
  match value with
  | .object fields => ⟨.object fields, false⟩
  | other => ⟨.object [("value", other)], false⟩

/-- The same store, never to be written to. -/
def freeze (store : Store) : Store :=
  { store with readOnly := true }

/-- Equality of stores: the same tree, and both writable or both not. -/
def same (left right : Store) : Bool :=
  left.tree.same right.tree && left.readOnly == right.readOnly

/-- The value at a path. -/
def get? (store : Store) (path : String) : Option Value :=
  lookup store.tree (segments path)

/-- Whether there is a value at a path. -/
def has (store : Store) (path : String) : Bool :=
  (store.get? path).isSome

/-- Write to a store unless it is read-only. -/
def ifWritable (store : Store) (operation : Operation) (write : Written Store) : Written Store :=
  if store.readOnly then (.error (.unsupported operation .readOnly), store) else write

/-- Set the value at a path. Nothing is written if nothing changes. -/
def set (store : Store) (path : String) (value : Value) (options : SetOptions) : Written Store :=
  store.ifWritable .set <|
    let parts := segments path
    if parts.isEmpty && !value.isObject then (.error (.assertion .objectAtRoot), store)
    else
      let old := lookup store.tree parts
      let new := match options.merge, old with
        | true, some old => deepMerge old value
        | _, _ => value
      let changed := diff path old new []
      if changed.isEmpty then (.ok .none, store)
      else
        let (answer, tree) := putInPlace new store.tree parts
        (answer.map fun _ => .keys changed, { store with tree := tree })

/-- Remove the value at a path. -/
def remove (store : Store) (path : String) : Written Store :=
  store.ifWritable .remove <|
    match takeOut store.tree (segments path) with
    | some (removed, tree) =>
        (.ok (.keys (removedLeaves path removed [])), { store with tree := tree })
    | none => (.ok .none, store)

/-- Merge a value into the tree by a given policy, which has to leave an object: the tree before is
brought back otherwise. -/
def mergeWith (store : Store) (value : Value) (policy : Value → Value → Value) : Written Store :=
  store.ifWritable .merge <|
    let merged := { store with tree := policy store.tree value }
    if merged.tree.isObject then (.ok (diffTrees store.tree merged.tree), merged)
    else (.error (.assertion .objectAfterMerge), { merged with tree := store.tree })

/-- Merge an object into the tree. -/
def merge (store : Store) (value : Value) : Written Store :=
  if value.isObject then store.mergeWith value deepMerge
  else (.error (.assertion .objectToMerge), store)

/-- Remove all fields. -/
def clear (store : Store) : Written Store :=
  store.ifWritable .clear (.ok .everything, { store with tree := .emptyObject })

/-- Put an object in place of the tree. Its fields are reported, whether they differ or not. -/
def replace (store : Store) (value : Value) : Written Store :=
  store.ifWritable .replace <|
    match value with
    | .object fields => (.ok (.keys fields), { store with tree := .object fields })
    | _ => (.error (.assertion .objectToReplace), store)

end Store

end Waymark
