/-!
Why a store refuses an operation, and how it is said.
-/

namespace Waymark

namespace Store

/-- The operations that write to a store. -/
inductive Operation where
  | set
  | remove
  | merge
  | clear
  | replace
deriving DecidableEq, Repr

/-- The name of an operation in messages. -/
def Operation.label : Operation → String
  | .set => "set"
  | .remove => "remove"
  | .merge => "merge"
  | .clear => "clear"
  | .replace => "replace"

/-- The stores that refuse operations altogether. -/
inductive Refusing where
  | readOnly
  | layered
deriving DecidableEq, Repr

/-- The name of a refusing store in messages. -/
def Refusing.label : Refusing → String
  | .readOnly => "read-only store"
  | .layered => "multi store"

/-- The conditions on the arguments of operations. -/
inductive Condition where
  | objectAfterMerge
  | objectAtRoot
  | objectToMerge
  | objectToReplace
  | segmentIsIndex (segment : String)
  | indexInRange (index count : Nat)
  | bindingKey
deriving DecidableEq, Repr

/-- The wording of a condition that does not hold. -/
def Condition.text : Condition → String
  | .objectAfterMerge => "merge must leave an object at the root"
  | .objectAtRoot => "only an object can be set at the root"
  | .objectToMerge => "can only merge an object tree"
  | .objectToReplace => "replacement must be an object"
  | .segmentIsIndex segment => "array segment \x60" ++ segment ++ "\x60 is not an index"
  | .indexInRange index count =>
      "index " ++ toString index ++ " out of range for " ++ toString count ++ " items"
  | .bindingKey => "binding key must not be empty"

/-- Why an operation fails. -/
inductive Error where
  | unsupported (operation : Operation) (store : Refusing)
  | assertion (condition : Condition)
  /-- The handler of an observer failed. -/
  | observer (id cause : String)
  /-- Handlers cannot be left to run later. -/
  | noRuntime
deriving DecidableEq, Repr

/-- The wording of an error. -/
def Error.message : Error → String
  | .unsupported operation store =>
      "Unsupported operation: " ++ operation.label ++ " on " ++ store.label
  | .assertion condition => "Assertion failed: " ++ condition.text
  | .observer id _ => "Observer \"" ++ id ++ "\" failed"
  | .noRuntime => "Asynchronous dispatch requires a tokio runtime"

end Store

end Waymark
