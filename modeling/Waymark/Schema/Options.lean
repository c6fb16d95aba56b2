import Waymark.Json.Decoder
import Waymark.Pattern.Options
/-!
Pattern options as documents: an object with any of the option fields, or an array of their values
in order. A field that is left out has its standard value.
-/

namespace Waymark.Schema

open Waymark.Json

namespace Options

/-- The names of the option fields, in order. -/
def names : List String :=
  ["sensitive", "strict", "start", "end", "delimiter", "ends_with", "prefixes"]

/-- Read the value of a field into options. -/
def field (name : String) (options : Pattern.Options) : Decoder Pattern.Options := do
  match name with
  | "sensitive" => return { options with sensitive := ← Decoder.bool }
  | "strict" => return { options with strict := ← Decoder.bool }
  | "start" => return { options with atStart := ← Decoder.bool }
  | "end" => return { options with atEnd := ← Decoder.bool }
  | "delimiter" => return { options with delimiter := (← Decoder.string).toList }
  | "ends_with" => return { options with endsWith := (← Decoder.string).toList }
  | "prefixes" => return { options with prefixes := (← Decoder.string).toList }
  | _ => Decoder.mismatch

/-- Read pattern options. -/
def decoder : Decoder Pattern.Options :=
  Decoder.record .standard names field

/-- Pattern options as a document with all fields. -/
def toValue (options : Pattern.Options) : Value :=
  .object <| Dict.ofList
    [("sensitive", .bool options.sensitive), ("strict", .bool options.strict),
      ("start", .bool options.atStart), ("end", .bool options.atEnd),
      ("delimiter", .string (String.ofList options.delimiter)),
      ("ends_with", .string (String.ofList options.endsWith)),
      ("prefixes", .string (String.ofList options.prefixes))]

end Options

end Waymark.Schema
