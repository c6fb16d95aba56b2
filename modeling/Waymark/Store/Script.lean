import Waymark.Store.Config
import Waymark.Store.Write
/-!
Observers, what they are told, and what they do about it.

A handler is a function from a notification to a script. A script is a tree: it acts on the store,
one step at a time, and goes on by what it is answered.
-/

namespace Waymark.Store

open Waymark.Json

/-- What an observer is told: who it is, what changed, and arguments of the one who tells. -/
structure Notification where
  observer : String
  options : Value
  changes : Changes
  args : List Value
deriving Repr

/-- Which notifications are delivered. -/
abbrev Filter := Notification → Bool

/-- What can be seen of a store with observers. -/
structure View where
  store : Core
  observers : List String
  muted : Bool
  /-- How many notification cycles are open. -/
  inFlight : Nat
  dispatch : Dispatch
deriving Repr

/-- What a handler does, step by step. -/
inductive Script where
  | done
  | fail (cause : String)
  /-- Let others run first, if others can run. -/
  | pause (rest : Script)
  | look (rest : View → Script)
  /-- Leave a note in the journal. -/
  | remark (note : Value) (rest : Script)
  | write (write : Write) (rest : Except Error Changes → Script)
  | notify (changes : Changes) (args : List Value) (rest : Except Error Unit → Script)
  | subscribe (id : String) (options : Value) (handler : Notification → Script) (rest : Script)
  | unsubscribe (id : String) (rest : Bool → Script)
  | setFilter (accepts : Option Filter) (rest : Script)
  | setMuted (muted : Bool) (rest : Script)

/-- A handler and how it is known. -/
structure Observer where
  id : String
  options : Value
  handler : Notification → Script

/-- What an observer is told of changes. -/
def Observer.notification (observer : Observer) (changes : Changes) (args : List Value) :
    Notification :=
  ⟨observer.id, observer.options, changes, args⟩

/-- A script that has been left to run later. -/
structure Task where
  id : String
  /-- It has not run at all yet. -/
  fresh : Bool
  script : Script

/-- What happens in a store with observers. -/
inductive Event where
  /-- A write has been applied. -/
  | wrote (changes : Changes)
  /-- A notification cycle begins. -/
  | opened
  /-- A notification cycle has ended. -/
  | closed
  /-- The filter has been asked about an observer. -/
  | consulted (id : String) (accepted : Bool)
  /-- A handler is called. -/
  | called (notification : Notification)
  /-- The script of a handler begins. -/
  | started (id : String)
  /-- The script of a handler has come to its end. -/
  | finished (id : String)
  /-- The script of a handler has failed. -/
  | failed (id cause : String)
  /-- A script has left a note. -/
  | remarked (id : Option String) (note : Value)
deriving Repr

/-- An event, and how many notification cycles were open after it. -/
structure Entry where
  event : Event
  inFlight : Nat
deriving Repr

end Waymark.Store
