import Waymark.Store.Basic
/-!
Stores that may be layered: a plain store, or several stores read as one.

A layered store answers from the first layer that has a path, and shows the trees of all layers
merged in order. It is never written to.
-/

namespace Waymark.Store

open Waymark.Json

/-- A plain store, or layers of stores. -/
inductive Core where
  | plain (store : Store)
  | layered (layers : List Core)
deriving Repr, Inhabited

namespace Core

mutual

/-- The value at a path. -/
def get? (path : String) : Core → Option Value
  | .plain store => store.get? path
  | .layered layers => getFirst? path layers

/-- The value at a path of the first layer that has one. -/
def getFirst? (path : String) : List Core → Option Value
  | [] => none
  | layer :: rest =>
      match get? path layer with
      | some value => some value
      | none => getFirst? path rest

end

mutual

/-- Whether there is a value at a path. -/
def has (path : String) : Core → Bool
  | .plain store => store.has path
  | .layered layers => anyHas path layers

/-- Whether some layer has a value at a path. -/
def anyHas (path : String) : List Core → Bool
  | [] => false
  | layer :: rest => has path layer || anyHas path rest

end

mutual

/-- The whole tree. -/
def snapshot : Core → Value
  | .plain store => store.tree
  | .layered layers => mergeLayers .emptyObject layers

/-- Merge the trees of layers into a tree, in order. -/
def mergeLayers (tree : Value) : List Core → Value
  | [] => tree
  | layer :: rest => mergeLayers (deepMerge tree (snapshot layer)) rest

end

/-- The value at a path, or another one. -/
def getD (core : Core) (path : String) (standard : Value) : Value :=
  (core.get? path).getD standard

/-- A plain store of the whole tree. -/
def cloneTree (core : Core) : Store :=
  Store.ofValue core.snapshot

/-- Write to a plain store; layers are not written to. -/
def write (core : Core) (operation : Operation) (act : Store → Written Store) : Written Core :=
  match core with
  | .plain store =>
      let (answer, store) := act store
      (answer, .plain store)
  | .layered layers => (.error (.unsupported operation .layered), .layered layers)

/-- Set the value at a path. -/
def set (core : Core) (path : String) (value : Value) (options : SetOptions) : Written Core :=
  core.write .set (·.set path value options)

/-- Remove the value at a path. -/
def remove (core : Core) (path : String) : Written Core :=
  core.write .remove (·.remove path)

/-- Merge an object into the tree. -/
def merge (core : Core) (value : Value) : Written Core :=
  core.write .merge (·.merge value)

/-- Remove all fields. -/
def clear (core : Core) : Written Core :=
  core.write .clear Store.clear

/-- Put an object in place of the tree. -/
def replace (core : Core) (value : Value) : Written Core :=
  core.write .replace (·.replace value)

/-- Add a layer after the others. -/
def push (core : Core) (layer : Core) : Core :=
  match core with
  | .plain store => .plain store
  | .layered layers => .layered (layers ++ [layer])

/-- Write to a layer from outside; the layers see what has been written. -/
def writeLayer (core : Core) (index : Nat) (act : Core → Written Core) : Option (Written Core) :=
  match core with
  | .plain _ => none
  | .layered layers => do
      let (answer, layer) := act (← layers[index]?)
      return (answer, .layered (layers.set index layer))

end Core

end Waymark.Store
