import Disasm8086.Command.Host.Numeral
import Disasm8086.Command.Level

/-!
# Thresholds

How grave an event must be to be let through.
-/
namespace Disasm8086.Command

/-- The number of levels that are let through, from the gravest on. -/
structure Threshold where
  rank : Nat
  deriving DecidableEq, Repr

namespace Threshold

/-- The names of thresholds, in the order of their ranks. -/
def names : List String :=
  ["off", "error", "warn", "info", "debug", "trace"]

/-- The threshold that lets events of a level through, and the graver ones. -/
def ofLevel : Level → Threshold
  | .error => ⟨1⟩
  | .warn => ⟨2⟩
  | .info => ⟨3⟩
  | .debug => ⟨4⟩
  | .trace => ⟨5⟩

/-- The threshold that a text gives by its rank, or by its name in letters of either case. -/
def ofText? (text : String) : Option Threshold :=
  match Numeral.ofDecimal? text.toList with
  | some rank => if rank < names.length then some ⟨rank⟩ else none
  | none => (names.idxOf? text.toLower).map Threshold.mk

def admits (threshold : Threshold) (level : Level) : Bool :=
  (ofLevel level).rank ≤ threshold.rank

end Threshold

end Disasm8086.Command
