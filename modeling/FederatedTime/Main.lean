import FederatedTime.Server.Report

/-!
# Command line

Reads the configuration of a federation from standard input, and tells what a coordinator of it
serves with the given options, or what is wrong with it.
-/

namespace FederatedTime

/-- How the options are written. -/
def usage : String := "usage: [--federation-id ID] [-p | --port PORT] [--no-clock-sync]"

/-- Everything that can still be read. -/
partial def readAll (input : IO.FS.Stream) (done : ByteArray) : IO ByteArray := do
  let chunk ← input.read 65536
  if chunk.isEmpty then pure done else readAll input (done ++ chunk)

end FederatedTime

open FederatedTime

def main (arguments : List String) : IO UInt32 := do
  match Server.Options.ofArguments? arguments with
  | none =>
    IO.eprintln usage
    pure 2
  | some options =>
    let contents ← readAll (← IO.getStdin) .empty
    match Server.report options "standard input" contents.toList with
    | .ok text =>
      IO.println text
      pure 0
    | .error message =>
      IO.eprintln ("Error: " ++ message)
      pure 1
