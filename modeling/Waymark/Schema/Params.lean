import Waymark.Json.Decoder
import Waymark.Pattern.Params
/-!
Parameters as documents: an object of texts, lists of texts and nulls.
-/

namespace Waymark.Schema

open Waymark.Json

namespace Params

/-- Read a text or a list of texts, for which the whole document in its place is taken first. -/
def textOrTexts {α : Type} (one : String → α) (many : List String → α) : Decoder α := do
  let events ← Decoder.buffered
  match events with
  | [.atom (.string text)] => return one text
  | events => return many (← Decoder.within (Decoder.list Decoder.string) events)

/-- Read the value of a parameter. -/
def paramValue : Decoder (Option Pattern.ParamValue) :=
  Decoder.optional (textOrTexts .single .repeated)

/-- Read a parameter into others. -/
def param (name : String) (params : Pattern.Params) : Decoder Pattern.Params := do
  return Dict.insert params name (← paramValue)

/-- Read parameters. Of entries with one name the last one counts. -/
def decoder : Decoder Pattern.Params := do
  match ← Decoder.next with
  | .beginObject => Decoder.fields [] param
  | _ => Decoder.mismatch

/-- The value of a parameter as a document. -/
def valueToValue : Option Pattern.ParamValue → Value
  | none => .null
  | some (.single text) => .string text
  | some (.repeated texts) => .array (texts.map .string)

/-- Parameters as a document. -/
def toValue (params : Pattern.Params) : Value :=
  .object (params.map fun (name, value) => (name, valueToValue value))

end Params

end Waymark.Schema
