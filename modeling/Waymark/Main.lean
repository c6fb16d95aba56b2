import Waymark.CommandLine
/-!
The outer layer of the command: arguments, standard input and standard output.
-/

namespace Waymark.Main

open Waymark

/-- All octets of a stream. -/
partial def readAll (stream : IO.FS.Stream) (octets : ByteArray) : IO ByteArray := do
  let chunk ← stream.read 65536
  if chunk.isEmpty then return octets else readAll stream (octets ++ chunk)

/-- Write what a run leaves behind. -/
def report (outcome : CommandLine.Outcome) : IO UInt32 := do
  (← IO.getStdout).putStr outcome.output
  (← IO.getStderr).putStr outcome.errors
  return outcome.exitCode

end Waymark.Main

open Waymark in
/-- Resolve the URLs of the arguments. The input is read only if the arguments are in order. -/
def main (arguments : List String) : IO UInt32 := do
  match CommandLine.urls arguments with
  | .error failure => Main.report ⟨[], some failure⟩
  | .ok urls =>
      let octets ← Main.readAll (← IO.getStdin) ByteArray.empty
      Main.report (CommandLine.run urls octets.toList)
