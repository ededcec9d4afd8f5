import Bhasha.CommandLine

/-!
# The program

Reads the file that the command line names, and writes what the command answers.
-/

namespace Bhasha

/-- What the file at a path holds. -/
def readContents (path : String) : IO FileContents := do
  try
    return .bytes (← IO.FS.readBinFile path)
  catch _ =>
    return .missing

end Bhasha

open Bhasha in
/-- Runs the command line and returns its exit status. -/
def main (arguments : List String) : IO UInt32 := do
  let command? := Command.ofArguments? arguments
  let file ← match command?.bind Command.path? with
    | some path => readContents path
    | none => pure FileContents.missing
  let seed ← IO.rand 0 (Nat.pow 2 63)
  let reply := match command? with
    | some command => command.reply (.ofSeed seed.toUInt64) file
    | none => .misuse
  IO.print reply.output
  IO.eprint reply.errorOutput
  return reply.status.toUInt32
