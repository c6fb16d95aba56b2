import Waymark.Store.Script
/-!
The store with observers.

A write that changes something opens a notification cycle: the observers and the filter of that
moment are gone through in the order of subscription, and the handlers of those that the filter
accepts are called. In synchronous dispatch the script of a handler runs to its end before the next
observer is asked about, and a failure ends the cycle; in asynchronous dispatch the scripts are left
as tasks.

A script may write to the store that runs it, so cycles nest. How deep they may is an argument, and
`none` says that they went deeper.
-/

namespace Waymark.Store

open Waymark.Json

/-- A store with observers. -/
structure Observable where
  store : Core
  observers : List Observer
  filter : Option Filter
  muted : Bool
  /-- How many notification cycles are open. -/
  inFlight : Nat
  dispatch : Dispatch
  /-- Whether scripts can be left to run later. -/
  hasRuntime : Bool
  /-- Scripts left to run later, in the order of their turns. -/
  tasks : List Task
  /-- What has happened, in order. -/
  journal : List Entry

namespace Observable

/-- A store that nobody observes yet. -/
def ofConfig (config : ObservableConfig) (store : Core) (hasRuntime : Bool) : Observable :=
  ⟨store, [], none, config.muted, 0, config.dispatch, hasRuntime, [], []⟩

/-- Enter an event into the journal. -/
def record (state : Observable) (event : Event) : Observable :=
  { state with journal := state.journal ++ [⟨event, state.inFlight⟩] }

/-- What can be seen of the store. -/
def view (state : Observable) : View :=
  ⟨state.store, state.observers.map (·.id), state.muted, state.inFlight, state.dispatch⟩

/-- Add an observer after the others. Observers may share an id. -/
def subscribe (state : Observable) (observer : Observer) : Observable :=
  { state with observers := state.observers ++ [observer] }

/-- Remove the observers of an id, and tell whether there were any. -/
def unsubscribe (state : Observable) (id : String) : Bool × Observable :=
  (state.observers.any (·.id = id),
    { state with observers := state.observers.filter (·.id ≠ id) })

/-- Open a notification cycle. -/
def enter (state : Observable) : Observable :=
  { state with inFlight := state.inFlight + 1 }.record .opened

/-- Close a notification cycle. -/
def leave (state : Observable) : Observable :=
  { state with inFlight := state.inFlight - 1 }.record .closed

/-- Ask the filter about a notification, if there is a filter. -/
def consult (state : Observable) (filter : Option Filter) (notification : Notification) :
    Bool × Observable :=
  match filter with
  | none => (true, state)
  | some accepts =>
      let accepted := accepts notification
      (accepted, state.record (.consulted notification.observer accepted))

/-- What runs a notification cycle. -/
abbrev Cycle := Changes → List Value → Observable → Option (Except Error Unit × Observable)

/-- Write to the store and tell the observers of it. A failure to tell them is the answer then, but
the write stays. -/
def write (cycle : Cycle) (state : Observable) (write : Write) :
    Option (Except Error Changes × Observable) :=
  match write.apply state.store with
  | (.error error, store) => some (.error error, { state with store })
  | (.ok changes, store) =>
      let state := { state with store }.record (.wrote changes)
      if write.isTold changes then
        (cycle changes [] state).map fun (answer, state) => (answer.map fun _ => changes, state)
      else some (.ok changes, state)

/-- Where a script has got to. -/
inductive Progress where
  | finished
  | failed (cause : String)
  | paused (rest : Script)

/-- Run the script of an observer, or of nobody in particular, to its end, or up to a pause unless
pauses are passed over. -/
def advance (cycle : Cycle) (passes : Bool) (id : Option String) :
    Script → Observable → Option (Progress × Observable)
  | .done, state => some (.finished, state)
  | .fail cause, state => some (.failed cause, state)
  | .pause rest, state =>
      if passes then advance cycle passes id rest state else some (.paused rest, state)
  | .look rest, state => advance cycle passes id (rest state.view) state
  | .remark note rest, state => advance cycle passes id rest (state.record (.remarked id note))
  | .write change rest, state =>
      match write cycle state change with
      | none => none
      | some (answer, state) => advance cycle passes id (rest answer) state
  | .notify changes args rest, state =>
      match cycle changes args state with
      | none => none
      | some (answer, state) => advance cycle passes id (rest answer) state
  | .subscribe name options handler rest, state =>
      advance cycle passes id rest (state.subscribe ⟨name, options, handler⟩)
  | .unsubscribe name rest, state =>
      let (existed, state) := state.unsubscribe name
      advance cycle passes id (rest existed) state
  | .setFilter filter rest, state => advance cycle passes id rest { state with filter }
  | .setMuted muted rest, state => advance cycle passes id rest { state with muted }

/-- Tell observers one after another, each script running to its end. The first failure is the
answer. -/
def tellAll (cycle : Cycle) (filter : Option Filter) (changes : Changes) (args : List Value) :
    List Observer → Observable → Option (Except Error Unit × Observable)
  | [], state => some (.ok (), state)
  | observer :: rest, state =>
      let notification := observer.notification changes args
      let (accepted, state) := state.consult filter notification
      if accepted then
        let state := (state.record (.called notification)).record (.started observer.id)
        match advance cycle true (some observer.id) (observer.handler notification) state with
        | none => none
        | some (.failed cause, state) =>
            some (.error (.observer observer.id cause), state.record (.failed observer.id cause))
        | some (_, state) =>
            tellAll cycle filter changes args rest (state.record (.finished observer.id))
      else tellAll cycle filter changes args rest state

/-- Call the handlers of observers in order and leave their scripts as tasks. -/
def spawnAll (filter : Option Filter) (changes : Changes) (args : List Value) :
    List Observer → Observable → Observable
  | [], state => state
  | observer :: rest, state =>
      let notification := observer.notification changes args
      let (accepted, state) := state.consult filter notification
      if accepted then
        let state := state.record (.called notification)
        let task : Task := ⟨observer.id, true, observer.handler notification⟩
        spawnAll filter changes args rest { state with tasks := state.tasks ++ [task] }
      else spawnAll filter changes args rest state

/-- Run a notification cycle, unless the store is muted, given what runs those within it. -/
def tell (within : Cycle) : Cycle := fun changes args state =>
  if state.muted then some (.ok (), state)
  else
    let entered := state.enter
    let told :=
      match state.dispatch with
      | .sync => tellAll within state.filter changes args state.observers entered
      | .async =>
          if state.hasRuntime then
            some (.ok (), spawnAll state.filter changes args state.observers entered)
          else some (.error .noRuntime, entered)
    told.map fun (answer, state) => (answer, state.leave)

/-- Run a notification cycle in which cycles nest no deeper than given. -/
def notify : Nat → Cycle
  | 0 => tell fun _ _ _ => none
  | depth + 1 => tell (notify depth)

/-- Run a script that nobody waits for: pauses are passed over, as nothing else is running. -/
def run (depth : Nat) (script : Script) (state : Observable) : Option (Progress × Observable) :=
  advance (notify depth) true none script state

/-- Give the first task its turn. A task that pauses goes behind the others. -/
def turn (depth : Nat) (state : Observable) : Option Observable :=
  match state.tasks with
  | [] => some state
  | task :: rest =>
      let state := { state with tasks := rest }
      let state := if task.fresh then state.record (.started task.id) else state
      match advance (notify depth) false (some task.id) task.script state with
      | none => none
      | some (.finished, state) => some (state.record (.finished task.id))
      | some (.failed cause, state) => some (state.record (.failed task.id cause))
      | some (.paused rest, state) =>
          some { state with tasks := state.tasks ++ [⟨task.id, false, rest⟩] }

/-- Give tasks their turns until there are none left, in no more turns than given. -/
def drain (depth : Nat) : Nat → Observable → Option Observable
  | 0, state => if state.tasks.isEmpty then some state else none
  | turns + 1, state =>
      if state.tasks.isEmpty then some state
      else
        match turn depth state with
        | none => none
        | some state => drain depth turns state

end Observable

end Waymark.Store
