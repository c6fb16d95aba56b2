import Waymark.Route.Table
import Waymark.Schema.Routes
import Waymark.Unicode.Classes
import Waymark.Unicode.Utf8
import Waymark.Json.Writer
/-!
The command line: resolve URLs against a routes document.

The URLs are arguments and the document is the input. Each URL that resolves gives a line, and the
first thing that goes wrong ends the run; the lines before it stay.
-/

namespace Waymark.CommandLine

open Waymark.Json

/-- What can go wrong. -/
inductive Failure where
  | missingValue
  | unknownArgument (argument : String)
  | noUrls
  /-- The input is not text. -/
  | notText
  | emptyInput
  | badDocument (cause : Json.Failure)
  | noRoutes
  | route (cause : Route.Error)
deriving DecidableEq, Repr

/-- Why a document is refused, in words. -/
def reason : Json.Failure → String
  | .unfinished => "the text ends too early"
  | .malformed => "the text is not a document"
  | .mismatched => "the document is not a routes document"

/-- The wording of a failure. -/
def Failure.message : Failure → String
  | .missingValue => "missing value for --url"
  | .unknownArgument argument =>
      "unknown argument '" ++ argument ++ "'. usage: zenith-route --url <url> [--url <url>...]"
  | .noUrls => "required flag missing: --url <url>"
  | .notText => "failed to read stdin: stream did not contain valid UTF-8"
  | .emptyInput => "stdin payload is empty"
  | .badDocument cause => "invalid routes JSON: " ++ reason cause
  | .noRoutes => "routes config declares no routes"
  | .route cause => cause.message

/-- What a run leaves behind: lines, and a failure if there was one. -/
structure Outcome where
  lines : List String
  failure : Option Failure
deriving DecidableEq, Repr

namespace Outcome

/-- The exit code. -/
def exitCode (outcome : Outcome) : UInt32 :=
  if outcome.failure.isSome then 1 else 0

/-- The text on the standard output. -/
def output (outcome : Outcome) : String :=
  String.join (outcome.lines.map (· ++ "\n"))

/-- The text on the standard error output. -/
def errors (outcome : Outcome) : String :=
  match outcome.failure with
  | some failure => "[zenith-route] " ++ failure.message ++ "\n"
  | none => ""

end Outcome

/-- Read the flags of the arguments. -/
def flags : List String → Except Failure (List String)
  | [] => .ok []
  | "--url" :: url :: rest => (url :: ·) <$> flags rest
  | "--url" :: [] => .error .missingValue
  | argument :: _ => .error (.unknownArgument argument)

/-- The URLs of the arguments, of which there has to be one. -/
def urls (arguments : List String) : Except Failure (List String) := do
  match ← flags arguments with
  | [] => throw .noUrls
  | urls => return urls

/-- The table of the routes document that is the input. -/
def table (input : List UInt8) : Except Failure Route.Table := do
  let some text := Unicode.Utf8.decode? input | throw .notText
  if (Unicode.trim (String.ofList text)).isEmpty then throw .emptyInput
  let config ← (Schema.Routes.decoder.decode (scan text)).mapError .badDocument
  if config.routes.isEmpty then throw .noRoutes
  (Route.Table.ofConfig config).mapError .route

/-- The line of a resolved URL. -/
def line (resolution : Route.Resolution) : String :=
  let location := resolution.location
  let text (field : Route.Target → String) : Value :=
    Value.ofOption (resolution.target.map fun target => .string (field target))
  let params := (resolution.target.map (·.params)).getD []
  Value.render <| .object
    [("url", .string location.url), ("title", text (·.title)), ("name", text (·.name)),
      ("path", .string location.path), ("params", Schema.Params.toValue params),
      ("query", .object (location.fields.map fun (name, value) => (name, .string value)))]

/-- Resolve URLs one after another. -/
def resolveAll (table : Route.Table) : List String → Outcome
  | [] => ⟨[], none⟩
  | url :: rest =>
      match table.resolve url with
      | .error cause => ⟨[], some (.route cause)⟩
      | .ok resolution =>
          let outcome := resolveAll table rest
          { outcome with lines := line resolution :: outcome.lines }

/-- Run on URLs and the input. -/
def run (urls : List String) (input : List UInt8) : Outcome :=
  match table input with
  | .error failure => ⟨[], some failure⟩
  | .ok table => resolveAll table urls

/-- Run on arguments and the input. The arguments are looked at first. -/
def runArguments (arguments : List String) (input : List UInt8) : Outcome :=
  match urls arguments with
  | .error failure => ⟨[], some failure⟩
  | .ok urls => run urls input

end Waymark.CommandLine
