import VehicleGateway.Program

/-!
# The command line

The configuration is read from the standard input, and the lines of the program's answer go to the
standard output.  A failure goes to the standard error.
-/

open VehicleGateway

/-- Reads a stream to its end. -/
partial def readAll (stream : IO.FS.Stream) (before : String) : IO String := do
  let line ← stream.getLine
  if line.isEmpty then return before else readAll stream (before ++ line)

/-- A secret seed. -/
def secretSeed : IO Block := do
  let bytes ← IO.getRandomBytes 16
  return (Block.ofBytes? bytes.toList).getD Block.zero

/-- Runs the program. -/
def main (args : List String) : IO UInt32 := do
  match Program.Task.read {} args with
  | none =>
    IO.eprintln Program.usage
    return 2
  | some task =>
    let text ← if task.demo then pure "" else readAll (← IO.getStdin) ""
    match Program.carryOut task text (← secretSeed) with
    | .ok lines =>
      lines.forM (IO.println ·)
      return 0
    | .error failure =>
      IO.eprintln failure.message
      return 1
