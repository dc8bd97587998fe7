import Disasm8086.Command.Host
import Disasm8086.Command.Program

/-!
# A run on the host

The command on a host, with what it writes to standard error given line by line.
-/
namespace Disasm8086.Command

structure Printed where
  code : UInt8
  stdout : String
  /-- The lines of standard error. -/
  stderr : List String
  deriving DecidableEq, Repr

/-- Every line of standard error is ended. -/
def Outcome.printed (outcome : Outcome) : Printed :=
  ⟨outcome.code, outcome.stdout, (outcome.stderr.splitOn "\n").dropLast⟩

/-- The filter of a setting, which does not depend on the files. -/
def Filter.ofSetting (setting : Option String) : Filter :=
  (host fun _ => .error .notFound).filterOf setting

/-- A run whose files are read by `read`. -/
def run (filter : Filter) (arguments : List String)
    (read : String → Except ReadError (List UInt8)) : Printed :=
  ((host read).runWith filter () arguments).printed

end Disasm8086.Command
