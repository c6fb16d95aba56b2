import Waymark.Store.Basic
/-!
A list of stores, addressed by index and then by path.
-/

namespace Waymark.Store

open Waymark.Json

/-- Stores in a row. -/
structure Rows where
  items : List Store
deriving Repr

namespace Rows

/-- One store for each value. -/
def ofValues (values : List Value) : Rows :=
  ⟨values.map Store.ofValue⟩

/-- Add a store of a value at the end; its index comes with the rows. -/
def push (rows : Rows) (value : Value) : Nat × Rows :=
  (rows.items.length, ⟨rows.items ++ [Store.ofValue value]⟩)

/-- The value at a path of an item. -/
def get? (rows : Rows) (index : Nat) (path : String) : Option Value := do
  (← rows.items[index]?).get? path

/-- Whether there is a value at a path of an item. -/
def has (rows : Rows) (index : Nat) (path : String) : Bool :=
  rows.items[index]?.any (·.has path)

/-- Write to an item, if there is one. -/
def writeAt (rows : Rows) (index : Nat) (write : Store → Written Store) : Written Rows :=
  match rows.items[index]? with
  | some item =>
      let (answer, item) := write item
      (answer, ⟨rows.items.set index item⟩)
  | none => (.error (.assertion (.indexInRange index rows.items.length)), rows)

/-- Set the value at a path of an item. -/
def set (rows : Rows) (index : Nat) (path : String) (value : Value) : Written Rows :=
  rows.writeAt index (·.set path value .standard)

/-- Remove the value at a path of an item. -/
def remove (rows : Rows) (index : Nat) (path : String) : Written Rows :=
  rows.writeAt index (·.remove path)

/-- The trees of the items. -/
def trees (rows : Rows) : List Value :=
  rows.items.map Store.tree

end Rows

end Waymark.Store
