import Tasking.Cli.Run
import Tasking.Text.Elapsed

/-! # The program

Reads the environment, runs the command line, measures the time it takes, and prints.
-/

namespace Tasking.Cli

/-- The variables that the command line looks at. -/
def watchedVariables : List String :=
  [Settings.workersVariable, Settings.detectionVariable, "NO_COLOR", "FORCE_COLOR",
    "CLICOLOR_FORCE"]

/-- Read the watched variables that are set. -/
def readEnvironment : IO (List (String × String)) := do
  let mut env := []
  for name in watchedVariables do
    if let some value ← IO.getEnv name then
      env := (name, value) :: env
  return env

/-- Evaluate, and measure how many nanoseconds that takes. -/
def measured {α : Type} (f : Unit → α) : IO (α × Nat) := do
  let start ← IO.monoNanosNow
  let a ← IO.lazyPure f
  let stop ← IO.monoNanosNow
  return (a, stop - start)

end Tasking.Cli

open Tasking

/-- Run the command line.  The machine runs one thread at a time. -/
def main (arguments : List String) : IO UInt32 := do
  let env ← Cli.readEnvironment
  let (report, nanos) ← Cli.measured fun _ => Cli.run (fun name => env.lookup name) 1 arguments
  IO.print (report.standardOutput (Text.elapsed nanos))
  IO.eprint report.errors
  return report.code.toUInt32
