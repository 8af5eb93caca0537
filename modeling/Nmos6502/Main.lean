import Nmos6502.CommandLine

/-!
# The program

Passes the arguments on, writes the two streams and leaves with the exit code.
-/

open Nmos6502

/-- The program. -/
def main (arguments : List String) : IO UInt32 := do
  match runCommandLine arguments with
  | none => return 1
  | some outcome =>
    (← IO.getStderr).putStr outcome.stderr
    (← IO.getStdout).putStr outcome.stdout
    return UInt32.ofNat outcome.code
