import Waymark.Dict
/-!
Named values of several types, and waiting for them.

A value is registered under a name and looked up by name and type. One who waits looks when it gets
its turn and falls asleep if there is no value of its type; every registration wakes all that are
asleep, and each of them looks again. `Registry.wait` plays this through against a list of changes
with times.
-/

namespace Waymark

/-- Where a waiter stands. -/
inductive WaitState (α : Type) where
  /-- It is to look. -/
  | due
  /-- It has looked in vain and waits to be woken. -/
  | asleep
  /-- It has been given a value. -/
  | served (value : α)
deriving DecidableEq, Repr

/-- One who waits for a value of a type under a name. -/
structure Waiter {κ : Type} (β : κ → Type) where
  name : String
  kind : κ
  state : WaitState (β kind)

/-- Values by name, each with its type, and those who wait. -/
structure Registry {κ : Type} (β : κ → Type) where
  entries : Dict (Sigma β)
  waiters : List (Waiter β)

/-- A change of what is registered. -/
inductive RegistryChange {κ : Type} (β : κ → Type) where
  | register (name : String) (item : Sigma β)
  | unregister (name : String)

variable {κ : Type} {β : κ → Type}

/-- An item as a value of a type, if it is one. -/
def itemAs? [DecidableEq κ] (kind : κ) (item : Sigma β) : Option (β kind) :=
  if h : item.1 = kind then some (h ▸ item.2) else none

@[simp] theorem itemAs?_self [DecidableEq κ] (kind : κ) (value : β kind) :
    itemAs? kind ⟨kind, value⟩ = some value := by
  simp [itemAs?]

/-- The value of a type that is held under a name. -/
def valueOf? [DecidableEq κ] (entries : Dict (Sigma β)) (kind : κ) (name : String) :
    Option (β kind) :=
  (Dict.get? entries name).bind (itemAs? kind)

/-- A value has not come in time, which is in milliseconds. -/
structure Timeout where
  name : String
  limit : Nat
deriving DecidableEq, Repr

namespace Waiter

/-- Wake a waiter that is asleep. -/
def wake (waiter : Waiter β) : Waiter β :=
  match waiter.state with
  | .asleep => { waiter with state := .due }
  | _ => waiter

/-- Let a waiter look, if it is to look. -/
def look [DecidableEq κ] (entries : Dict (Sigma β)) (waiter : Waiter β) : Waiter β :=
  match waiter.state with
  | .due =>
      match valueOf? entries waiter.kind waiter.name with
      | some value => { waiter with state := .served value }
      | none => { waiter with state := .asleep }
  | _ => waiter

/-- What a waiter for a type has been given. -/
def answer? [DecidableEq κ] (kind : κ) (waiter : Waiter β) : Option (β kind) :=
  match waiter.state with
  | .served value => itemAs? kind ⟨waiter.kind, value⟩
  | _ => none

end Waiter

namespace Registry

/-- Nothing is registered, and nobody waits. -/
def empty : Registry β :=
  ⟨[], []⟩

/-- The value of a type that is registered under a name. -/
def get? [DecidableEq κ] (registry : Registry β) (kind : κ) (name : String) : Option (β kind) :=
  valueOf? registry.entries kind name

/-- Whether anything is registered under a name. -/
def contains (registry : Registry β) (name : String) : Bool :=
  Dict.contains registry.entries name

/-- How many names have a value. -/
def size (registry : Registry β) : Nat :=
  registry.entries.length

/-- Register a value under a name, in place of any earlier one, and wake all who are asleep. -/
def register (registry : Registry β) (name : String) (item : Sigma β) : Registry β :=
  ⟨Dict.insert registry.entries name item, registry.waiters.map Waiter.wake⟩

/-- Remove what is registered under a name. -/
def unregister (registry : Registry β) (name : String) : Registry β :=
  { registry with entries := Dict.erase registry.entries name }

/-- Apply a change. -/
def apply (registry : Registry β) : RegistryChange β → Registry β
  | .register name item => registry.register name item
  | .unregister name => registry.unregister name

/-- Begin to wait. The waiter is to look at its first turn. -/
def join (registry : Registry β) (name : String) (kind : κ) : Registry β :=
  { registry with waiters := registry.waiters ++ [⟨name, kind, .due⟩] }

/-- Give a waiter its turn. -/
def poll [DecidableEq κ] (registry : Registry β) (index : Nat) : Registry β :=
  { registry with waiters := registry.waiters.modify index (Waiter.look registry.entries) }

/-- What a waiter for a type has been given. -/
def answer? [DecidableEq κ] (registry : Registry β) (index : Nat) (kind : κ) : Option (β kind) :=
  registry.waiters[index]?.bind (Waiter.answer? kind)

/-- Give a waiter a turn after the changes of each moment, up to a time: what it has been given, and
when. -/
def serve [DecidableEq κ] (index : Nat) (kind : κ) (limit : Nat) :
    List (Nat × RegistryChange β) → Registry β → Option (β kind × Nat)
  | [], _ => none
  | (time, change) :: rest, registry =>
      if limit ≤ time then none
      else
        let registry := registry.apply change
        if rest.head?.any (·.1 = time) then serve index kind limit rest registry
        else
          let registry := registry.poll index
          match registry.answer? index kind with
          | some value => some (value, time)
          | none => serve index kind limit rest registry

/-- Wait for a value, for so long at most, while changes happen at their times, which increase. The
value and the time waited, if it came, and the registry after all changes. -/
def wait [DecidableEq κ] (registry : Registry β) (name : String) (kind : κ) (limit : Nat)
    (changes : List (Nat × RegistryChange β)) : Except Timeout (β kind × Nat) × Registry β :=
  let index := registry.waiters.length
  let joined := (registry.join name kind).poll index
  let served :=
    match joined.answer? index kind with
    | some value => some (value, 0)
    | none => serve index kind limit changes joined
  (served.elim (.error ⟨name, limit⟩) .ok,
    changes.foldl (fun registry (_, change) => registry.apply change) registry)

/-- How long a waiter waits unless it says otherwise, in milliseconds. -/
def standardLimit : Nat := 10000

end Registry

namespace Timeout

/-- A number without the zeros at the end of its digits, given three digits. -/
def thousandths (value : Nat) : String :=
  let digits := [value / 100, value / 10 % 10, value % 10]
  let kept := (digits.reverse.dropWhile (· = 0)).reverse
  String.join (kept.map toString)

/-- A time in milliseconds as text: seconds from one second on, as short as can be. -/
def durationText (milliseconds : Nat) : String :=
  if milliseconds = 0 then "0ns"
  else if milliseconds < 1000 then toString milliseconds ++ "ms"
  else
    let fraction := thousandths (milliseconds % 1000)
    toString (milliseconds / 1000) ++ (if fraction.isEmpty then "" else "." ++ fraction) ++ "s"

/-- The wording of a timeout. -/
def message (timeout : Timeout) : String :=
  "Timed out after " ++ durationText timeout.limit ++ " waiting for \x60" ++ timeout.name ++ "\x60"

end Timeout

end Waymark
