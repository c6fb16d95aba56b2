import Waymark.Json.Value
import Waymark.Dict
/-!
Elements: what shows a value and lets a user change it.

An element calls its listeners when its value is changed by a user, and when it is written to if the
writer asks for it. An element that passes tags on tells its listeners whether the change comes from
a store.
-/

namespace Waymark.Store

open Waymark.Json

/-- An element. -/
structure Element where
  value : Value
  /-- The mark of an element that is bound. -/
  marked : Bool
  /-- The element has not been destroyed. -/
  alive : Bool
  /-- What the element holds after a value has been written to it. -/
  shown : Value → Value
  /-- Listeners are told that a change comes from a store. -/
  passesTags : Bool
  /-- The listeners by number, each with the key it takes changes to. -/
  listeners : List (Nat × String)
  /-- The number of the next listener. -/
  nextListener : Nat

namespace Element

/-- An element that keeps what is written to it and passes tags on. -/
def plain (value : Value) : Element :=
  ⟨value, false, true, id, true, [], 0⟩

/-- Add a listener after the others. -/
def listen (element : Element) (key : String) : Element :=
  { element with
    listeners := element.listeners ++ [(element.nextListener, key)]
    nextListener := element.nextListener + 1 }

/-- Remove a listener. -/
def unlisten (element : Element) (listener : Nat) : Element :=
  { element with listeners := element.listeners.filter (·.1 ≠ listener) }

end Element

/-- What is made of a value before it is set, given the key and the value of the element that it
comes from, if it comes from one. The name is for the journal. -/
structure Transform where
  name : String
  apply : Value → String → Option Value → Value

end Waymark.Store
