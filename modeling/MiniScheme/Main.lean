import MiniScheme.CommandLine

/-!
# The program

Runs the command line with the arguments and the environment of the process.
-/

open MiniScheme in
def main (args : List String) : IO UInt32 := do
  let sourceName ← IO.getEnv "SCHEMER_SOURCE_NAME"
  let logLevel ← IO.getEnv "SCHEMER_LOG_LEVEL"
  let env : Environment := fun name =>
    if name = "SCHEMER_SOURCE_NAME" then sourceName
    else if name = "SCHEMER_LOG_LEVEL" then logLevel
    else none
  let exit := CommandLine.run .standard env args
  IO.print exit.out
  IO.eprint exit.err
  return exit.code.toUInt32
