import Waymark.Store.Config
import Waymark.Store.Element
import Waymark.Store.Write
import Waymark.Unicode.Classes
/-!
The store bound to elements.

Each key has elements bound to it, in order. A write to the store is passed on to the elements bound
to the keys it touches, and a change that a user makes to an element is set at the key of the
element. What an element changed is not written back to it: it is the source of the change, and
what the store writes is tagged, which the listeners of the store ignore.

An element that does not pass the tag on makes the store write again while it writes. How deep such
writes nest is an argument, and `none` says that they went deeper.
-/

namespace Waymark.Store

open Waymark.Json

/-- An element that is bound to a key, with the listener that the store has put on it. -/
structure Bound where
  element : Nat
  listener : Option Nat
deriving DecidableEq, Repr

/-- The elements of a key, and what is made of values that are set there. -/
structure Binding where
  elements : List Bound
  transform : Option Transform

/-- What happens in a store that is bound to elements. -/
inductive BindingEvent where
  /-- The mark of an element has been set. -/
  | marked (element : Nat) (bound : Bool)
  | listened (element listener : Nat)
  | unlistened (element listener : Nat)
  /-- A value has been transformed. -/
  | transformed (name key : String) (value : Value) (hasSource : Bool)
  /-- The store is written to. -/
  | stored (write : Write)
  /-- An element has been written to. -/
  | shown (element : Nat) (value : Value) (triggers fromStore : Bool)
deriving Repr

/-- A store bound to elements, which are known by their position. -/
structure Bindable where
  store : Core
  mode : BindingMode
  bindings : Dict Binding
  elements : List Element
  journal : List BindingEvent

namespace Bindable

/-- A store that nothing is bound to yet. -/
def start (store : Core) (mode : BindingMode) (elements : List Element) : Bindable :=
  ⟨store, mode, [], elements, []⟩

/-- Enter an event into the journal. -/
def record (state : Bindable) (event : BindingEvent) : Bindable :=
  { state with journal := state.journal ++ [event] }

/-- Change an element. -/
def modify (state : Bindable) (element : Nat) (change : Element → Element) : Bindable :=
  { state with elements := state.elements.modify element change }

/-- An element that has not been destroyed. -/
def live? (state : Bindable) (element : Nat) : Option Element :=
  (state.elements[element]?).filter (·.alive)

/-- Whether an element has not been destroyed. -/
def isLive (state : Bindable) (element : Nat) : Bool :=
  (state.live? element).isSome

/-- Set the mark of an element. -/
def mark (state : Bindable) (element : Nat) (bound : Bool) : Bindable :=
  (state.modify element fun e => { e with marked := bound }).record (.marked element bound)

/-- Destroy an element. The store does not keep it. -/
def drop (state : Bindable) (element : Nat) : Bindable :=
  state.modify element fun e => { e with alive := false }

/-- The elements that are bound to a key, in order. -/
def boundTo (state : Bindable) (key : String) : List Nat :=
  match Dict.get? state.bindings key with
  | some binding => (binding.elements.map (·.element)).filter state.isLive
  | none => []

/-- Write a value to an element without calling its listeners. -/
def put (state : Bindable) (element : Nat) (value : Value) (triggers fromStore : Bool) : Bindable :=
  (state.modify element fun e => { e with value := e.shown value }).record
    (.shown element value triggers fromStore)

/-- Put a listener of the store on an element, and tell its number. -/
def listen (state : Bindable) (key : String) (element : Nat) : Option Nat × Bindable :=
  match state.elements[element]? with
  | none => (none, state)
  | some e =>
      (some e.nextListener,
        (state.modify element (·.listen key)).record (.listened element e.nextListener))

/-- Bind an element to a key, unless it is marked as bound already. It comes after the elements that
are bound to the key, and gets the value there is. -/
def bindTo (state : Bindable) (key : String) (element : Nat) (transform : Option Transform) :
    Except Error Bool × Bindable :=
  if (Unicode.trim key).isEmpty then (.error (.assertion .bindingKey), state)
  else if (state.elements[element]?).any (·.marked) then (.ok false, state)
  else
    let state := state.mark element true
    let (listener, state) := if state.mode.listens then state.listen key element else (none, state)
    let binding := (Dict.get? state.bindings key).getD ⟨[], none⟩
    let binding : Binding :=
      ⟨binding.elements ++ [⟨element, listener⟩], transform.or binding.transform⟩
    let state := { state with bindings := Dict.insert state.bindings key binding }
    let state :=
      match state.store.get? key with
      | some value => if state.mode.writesElements then state.put element value false true else state
      | none => state
    (.ok true, state)

/-- Undo the first binding of an element to a key, and tell whether there was one. -/
def unbind (state : Bindable) (key : String) (element : Nat) : Bool × Bindable :=
  match Dict.get? state.bindings key with
  | none => (false, state)
  | some binding =>
      match binding.elements.find? (·.element = element) with
      | none => (false, state)
      | some bound =>
          let binding := { binding with elements := binding.elements.erase bound }
          let state := { state with bindings := Dict.insert state.bindings key binding }
          let state :=
            match bound.listener with
            | some listener =>
                (state.modify element (·.unlisten listener)).record (.unlistened element listener)
            | none => state
          (true, state.mark element false)

/-- What takes the value of an element to a key of the store. -/
abbrev Intake := Nat → String → Bindable → Option Bindable

/-- Call the listeners of an element. They do nothing if the change comes from the store. -/
def fire (intake : Intake) (element : Nat) (fromStore : Bool) (state : Bindable) : Option Bindable :=
  if fromStore then some state
  else
    ((state.elements[element]?.map (·.listeners)).getD []).foldlM
      (fun state (_, key) => intake element key state) state

/-- Write a value of the store to an element and call its listeners. -/
def display (intake : Intake) (state : Bindable) (element : Nat) (value : Value) : Option Bindable :=
  let passesTags := (state.elements[element]?).all (·.passesTags)
  fire intake element passesTags (state.put element value true true)

/-- The elements that are to be told of changes and the values they are told: for each key that is
touched, the elements bound to it apart from the source. -/
def targets (state : Bindable) (changes : Changes) (source : Option Nat) : List (Nat × Value) :=
  (state.bindings.filter fun (key, _) => changes.touches key).flatMap fun (key, _) =>
    let value := (state.store.get? key).getD .null
    ((state.boundTo key).filter fun element => some element ≠ source).map fun element =>
      (element, value)

/-- Pass changes on to elements. -/
def push (intake : Intake) (changes : Changes) (source : Option Nat) (state : Bindable) :
    Option Bindable :=
  if changes.isEmpty || !state.mode.writesElements then some state
  else
    (state.targets changes source).foldlM
      (fun state (element, value) => display intake state element value) state

/-- A value that is to be set, after the transform of its key. -/
def transformed (state : Bindable) (key : String) (value : Value) (source : Option Nat) :
    Value × Bindable :=
  match (Dict.get? state.bindings key).bind (·.transform) with
  | none => (value, state)
  | some transform =>
      let sourceValue := source.bind fun element => state.elements[element]?.map (·.value)
      (transform.apply value key sourceValue,
        state.record (.transformed transform.name key value source.isSome))

/-- A write as it goes to the store. -/
def prepared (state : Bindable) (source : Option Nat) : Write → Write × Bindable
  | .set key value options =>
      let (value, state) := state.transformed key value source
      (.set key value options, state)
  | write => (write, state)

/-- The changes that elements are told of a write. A new tree concerns all of them. -/
def toldChanges : Write → Changes → Changes
  | .set _ _ options, changes => if options.silent then .none else changes
  | .replace _, _ => .everything
  | _, changes => changes

/-- Write to the store and pass the changes on. -/
def write (intake : Intake) (state : Bindable) (write : Write) (source : Option Nat) :
    Option (Except Error Changes × Bindable) :=
  let (write, state) := state.prepared source write
  let (answer, store) := write.apply state.store
  let state := { state with store }.record (.stored write)
  match answer with
  | .error error => some (.error error, state)
  | .ok changes =>
      (push intake (toldChanges write changes) source state).map fun state => (.ok changes, state)

/-- Take the value of an element to a key of the store, where writes nest no deeper than given. What
the store answers nobody hears. -/
def intake : Nat → Intake
  | 0 => fun _ _ _ => none
  | depth + 1 => fun element key state =>
      match state.elements[element]? with
      | none => some state
      | some e =>
          (write (intake depth) state (.set key e.value .standard) (some element)).map (·.2)

/-- Write to the store, where writes nest no deeper than given. -/
def writeWithin (depth : Nat) (state : Bindable) (write : Write) (source : Option Nat) :
    Option (Except Error Changes × Bindable) :=
  Bindable.write (intake depth) state write source

/-- A user changes the value of an element. -/
def input (depth : Nat) (state : Bindable) (element : Nat) (value : Value) (fromStore : Bool) :
    Option Bindable :=
  fire (intake depth) element fromStore (state.modify element fun e => { e with value })

end Bindable

end Waymark.Store
