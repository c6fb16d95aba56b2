import Waymark.Json.Event
/-!
Reading typed values from the events of a document.

A `Decoder` takes events from the front. When they run out it fails with what ended the events, so
of two faults in a text the earlier one is reported.
-/

namespace Waymark.Json

/-- A reader of typed values from events. -/
abbrev Decoder (α : Type) := ReaderT Failure (StateT (List Event) (Except Failure)) α

namespace Decoder

/-- Take the next event. -/
def next : Decoder Event := do
  match ← get with
  | event :: rest => set rest; return event
  | [] => throw (← read)

/-- Look at the next event. -/
def peek : Decoder Event := do
  match ← get with
  | event :: _ => return event
  | [] => throw (← read)

/-- Fail because the document does not have the expected shape. -/
def mismatch {α : Type} : Decoder α :=
  throw .mismatched

/-- A boolean. -/
def bool : Decoder Bool := do
  match ← next with
  | .atom (.bool value) => return value
  | _ => mismatch

/-- A string. -/
def string : Decoder String := do
  match ← next with
  | .atom (.string text) => return text
  | _ => mismatch

/-- Read items, each after its `item` event, up to the end of an array that has been entered. -/
def itemsUpTo {α : Type} (item : Decoder α) : Nat → Decoder (List α)
  | 0 => mismatch
  | fuel + 1 => do
      match ← next with
      | .item => return (← item) :: (← itemsUpTo item fuel)
      | _ => return []

/-- A list. -/
def list {α : Type} (item : Decoder α) : Decoder (List α) := do
  match ← next with
  | .beginArray => itemsUpTo item ((← get).length + 1)
  | _ => mismatch

/-- Fold the fields of an object that has been entered: each step gets the name and reads the
value. -/
def fieldsUpTo {σ : Type} (field : String → σ → Decoder σ) : Nat → σ → Decoder σ
  | 0, _ => mismatch
  | fuel + 1, state => do
      match ← next with
      | .key name => fieldsUpTo field fuel (← field name state)
      | _ => return state

/-- Fold the fields of an object that has been entered. -/
def fields {σ : Type} (start : σ) (field : String → σ → Decoder σ) : Decoder σ := do
  fieldsUpTo field ((← get).length + 1) start

mutual

/-- Any document. Of fields with one name the last one counts. -/
def valueWith : Nat → Decoder Value
  | 0 => mismatch
  | fuel + 1 => do
      match ← next with
      | .atom value => return value
      | .beginArray => return .array (← itemsWith fuel)
      | .beginObject => return .object (← fieldsWith fuel [])
      | _ => mismatch

/-- The items of an array that has been entered. -/
def itemsWith : Nat → Decoder (List Value)
  | 0 => mismatch
  | fuel + 1 => do
      match ← next with
      | .item =>
          let item ← valueWith fuel
          return item :: (← itemsWith fuel)
      | _ => return []

/-- The fields of an object that has been entered. -/
def fieldsWith : Nat → Dict Value → Decoder (Dict Value)
  | 0, _ => mismatch
  | fuel + 1, done => do
      match ← next with
      | .key name =>
          let value ← valueWith fuel
          fieldsWith fuel (Dict.insert done name value)
      | _ => return done

end

/-- Any document. -/
def value : Decoder Value := do
  valueWith ((← get).length + 1)

/-- The events of the next document, unread. A list or an object is taken whole. -/
def skipTo : Nat → Nat → List Event → Decoder (List Event)
  | 0, _, _ => mismatch
  | fuel + 1, depth, done => do
      let event ← next
      let depth := match event with
        | .beginArray | .beginObject => depth + 1
        | .endArray | .endObject => depth - 1
        | _ => depth
      if depth = 0 then return (event :: done).reverse
      else skipTo fuel depth (event :: done)

/-- Take the next document whole, so that it can be read later. -/
def buffered : Decoder (List Event) := do
  skipTo ((← get).length + 1) 0 []

/-- Read events that were taken before; they are complete. -/
def within {α : Type} (decoder : Decoder α) (events : List Event) : Decoder α := do
  match (decoder.run .mismatched).run events with
  | .ok (value, _) => return value
  | .error failure => throw failure

/-- Null, or a value. -/
def optional {α : Type} (decoder : Decoder α) : Decoder (Option α) := do
  match ← peek with
  | .atom .null => let _ ← next; return none
  | _ => return some (← decoder)

/-- A choice between fixed names, written as the name or as an object with the name as its only
field, holding null. Anything else in its place is not a mismatch but a fault of the text. -/
def choice {α : Type} (named : String → Option α) : Decoder α := do
  match ← next with
  | .atom (.string name) => match named name with
    | some value => return value
    | none => mismatch
  | .beginObject =>
      match ← next with
      | .key name =>
          match named name with
          | none => mismatch
          | some value =>
              match ← next with
              | .atom .null =>
                  match ← next with
                  | .endObject => return value
                  | _ => throw .malformed
              | _ => mismatch
      | _ => throw .malformed
  | _ => throw .malformed

/-- Read the value of a field of a record, whose name is known and has not been seen before. -/
def once {σ : Type} (names : List String) (field : String → σ → Decoder σ) (name : String)
    (state : List String × σ) : Decoder (List String × σ) := do
  if !names.contains name || state.1.contains name then mismatch
  return (name :: state.1, ← field name state.2)

/-- Read the values of fields in order, in an array that has been entered. -/
def inOrder {σ : Type} (field : String → σ → Decoder σ) : List String → σ → Decoder σ
  | [], state => do
      match ← next with
      | .endArray => return state
      | _ => throw .malformed
  | name :: rest, state => do
      match ← next with
      | .item => inOrder field rest (← field name state)
      | _ => return state

/-- A record with named fields, all optional, that may also be written as an array of the fields in
order. A name that is unknown or repeated is a mismatch; an array with too many items is a fault of
the text. -/
def record {σ : Type} (start : σ) (names : List String) (field : String → σ → Decoder σ) :
    Decoder σ := do
  match ← next with
  | .beginObject =>
      let (_, state) ← fields (([] : List String), start) (once names field)
      return state
  | .beginArray => inOrder field names start
  | _ => mismatch

/-- Read a whole document. -/
def decode {α : Type} (decoder : Decoder α) (document : Events) : Except Failure α :=
  match (decoder.run (document.ending.getD .mismatched)).run document.events with
  | .error failure => .error failure
  | .ok (value, _) =>
      match document.ending with
      | none => .ok value
      | some failure => .error failure

end Decoder

/-- Read a document from text. -/
def parse (text : String) : Except Failure Value :=
  Decoder.value.decode (scan text.toList)

end Waymark.Json
