/-!
# Levels of the log

How grave an event of the log is.
-/
namespace Disasm8086.Command

inductive Level where
  | error
  | warn
  | info
  | debug
  | trace
  deriving DecidableEq, Repr

/-- The name of a level in a line of the log, in five columns. -/
def Level.label : Level → String
  | .error => "ERROR"
  | .warn => " WARN"
  | .info => " INFO"
  | .debug => "DEBUG"
  | .trace => "TRACE"

end Disasm8086.Command
