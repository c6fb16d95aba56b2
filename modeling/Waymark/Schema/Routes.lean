import Waymark.Route.Config
import Waymark.Schema.Options
import Waymark.Schema.Params
/-!
Routes as documents.

A routes document has no other fields than its own. A route may have any: those that are not its
own are ignored, and the fields of its specification are read once all of them are there.
-/

namespace Waymark.Schema

open Waymark.Json

namespace Routes

/-- The fields of a route specification. -/
def specNames : List String :=
  ["path", "name", "origin", "settings", "extender", "options"]

/-- The fields of an object, each with the events of its value. -/
abbrev Buffered := List (String × List Event)

/-- Read the value of a field that has been taken, if it is there. A field that is there twice is a
mismatch. -/
def field? {α : Type} (taken : Buffered) (name : String) (decoder : Decoder α) :
    Decoder (Option α) := do
  match taken.filter (·.1 == name) with
  | [] => return none
  | [(_, events)] => return some (← Decoder.within decoder events)
  | _ => Decoder.mismatch

/-- Read patterns. -/
def path : Decoder Route.RoutePath :=
  Params.textOrTexts .one .many

/-- Read a text that has been taken, if it is there and not null. -/
def text? (taken : Buffered) (name : String) : Decoder (Option String) := do
  return (← field? taken name (Decoder.optional Decoder.string)).join

/-- Read the fields of a specification. -/
def specOf (taken : Buffered) : Decoder Route.RouteSpec := do
  let path ← field? taken "path" path
  let name ← text? taken "name"
  let origin ← text? taken "origin"
  let settings ← text? taken "settings"
  let extender ← text? taken "extender"
  let options ← field? taken "options" (Decoder.optional Decoder.value)
  match path with
  | some path => return ⟨path, name, origin, settings, extender, options.join⟩
  | none => Decoder.mismatch

/-- Take the value of a field, to be read later. -/
def take (name : String) (taken : Buffered) : Decoder Buffered := do
  return taken ++ [(name, ← Decoder.buffered)]

/-- Read a route specification, an object or an array of its values in order. -/
def spec : Decoder Route.RouteSpec := do
  match ← Decoder.next with
  | .beginObject => specOf (← Decoder.fields [] take)
  | .beginArray =>
      let items ← Decoder.itemsUpTo Decoder.buffered ((← get).length + 1)
      if specNames.length < items.length then Decoder.mismatch
      specOf (specNames.zip items)
  | _ => Decoder.mismatch

/-- Read the title of a route, or take the value of another field of it. -/
def titled (name : String) (state : Option String × Buffered) :
    Decoder (Option String × Buffered) := do
  if name == "title" then
    if state.1.isSome then Decoder.mismatch
    return (some (← Decoder.string), state.2)
  else return (state.1, ← take name state.2)

/-- Read a route. -/
def definition : Decoder Route.RouteDefinition := do
  match ← Decoder.next with
  | .beginObject =>
      let (title, taken) ← Decoder.fields (none, []) titled
      match title with
      | some title => return ⟨title, ← specOf taken⟩
      | none => Decoder.mismatch
  | _ => Decoder.mismatch

/-- Read the value of a field of a routes document. -/
def configField (name : String) (config : Route.RoutesConfig) : Decoder Route.RoutesConfig := do
  match name with
  | "options" => return { config with options := ← Options.decoder }
  | "routes" => return { config with routes := ← Decoder.list definition }
  | _ => Decoder.mismatch

/-- Read a routes document. -/
def decoder : Decoder Route.RoutesConfig :=
  Decoder.record .standard ["options", "routes"] configField

/-- Patterns as a document. -/
def pathToValue : Route.RoutePath → Value
  | .one pattern => .string pattern
  | .many patterns => .array (patterns.map .string)

/-- A text that may be missing as a document. -/
def textToValue (text : Option String) : Value :=
  Value.ofOption (text.map .string)

/-- A route as a document with all fields. -/
def definitionToValue (route : Route.RouteDefinition) : Value :=
  .object <| Dict.ofList
    [("title", .string route.title), ("path", pathToValue route.spec.path),
      ("name", textToValue route.spec.name), ("origin", textToValue route.spec.origin),
      ("settings", textToValue route.spec.settings),
      ("extender", textToValue route.spec.extender),
      ("options", Value.ofOption route.spec.options)]

/-- A routes document with all fields. -/
def toValue (config : Route.RoutesConfig) : Value :=
  .object <| Dict.ofList
    [("options", Options.toValue config.options),
      ("routes", .array (config.routes.map definitionToValue))]

end Routes

end Waymark.Schema
