import Waymark.Store.Layered
/-!
Writes to a store as values.
-/

namespace Waymark.Store

open Waymark.Json

/-- A write. -/
inductive Write where
  | set (path : String) (value : Value) (options : SetOptions)
  | remove (path : String)
  | merge (value : Value)
  | clear
  | replace (value : Value)
deriving Repr

namespace Write

/-- Write to a store. -/
def apply : Write → Core → Written Core
  | .set path value options, store => store.set path value options
  | .remove path, store => store.remove path
  | .merge value, store => store.merge value
  | .clear, store => store.clear
  | .replace value, store => store.replace value

/-- Whether observers are told of a write. Of a new tree as a whole they always are, of other
writes if something changed. -/
def isTold (write : Write) (changes : Changes) : Bool :=
  match write with
  | .set _ _ options => !options.silent && !changes.isEmpty
  | .remove _ => !changes.isEmpty
  | .merge _ => !changes.isEmpty
  | .clear => true
  | .replace _ => true

end Write

end Waymark.Store
