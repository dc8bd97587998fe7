import Disasm8086.Command.Run

/-!
# The command

Reads the arguments, the log setting and the input file of a run, and prints its outcome.
-/
namespace Disasm8086.Command

/-- The cause of a failed read. Of a path that is no file of the right type, the code tells a
directory from a way through a file. -/
def ReadError.ofFailure : IO.Error → ReadError
  | .noFileOrDirectory .. => .notFound
  | .inappropriateType _ 21 _ => .isADirectory
  | .inappropriateType .. => .notADirectory
  | failure => .other (toString failure)

/-- The bytes of a file on disk. -/
def readFile (path : String) : IO (Except ReadError (List UInt8)) :=
  try
    return .ok (← IO.FS.readBinFile path).toList
  catch failure =>
    return .error (.ofFailure failure)

/-- The run of the arguments, with the one file that they name read from disk. -/
def runOnDisk (filter : Filter) (arguments : List String) : IO Printed := do
  let contents ← match Request.ofArguments arguments with
    | .ok (.disassemble path) => readFile path
    | _ => pure (.error .notFound)
  return run filter arguments fun _ => contents

end Disasm8086.Command

open Disasm8086.Command in
def main (arguments : List String) : IO UInt32 := do
  let filter := Filter.ofSetting (← IO.getEnv "RUST_LOG")
  let printed ← runOnDisk filter arguments
  IO.print printed.stdout
  for line in printed.stderr do
    IO.eprintln line
  return printed.code.toUInt32
