import ToolSpec.CommandLine

/-!
# Program

Prints the sample tools. A dialect that does not exist is reported on standard error.
-/

set_option autoImplicit false

open ToolSpec in
def main (args : List String) : IO UInt32 := do
  let outcome := CommandLine.run args
  IO.print outcome.output
  if let .error e := CommandLine.dialects args then
    IO.eprintln e.message
  return outcome.exitCode.toUInt32
