import Disasm8086.Command.Host.Text.Alphabetic
import Disasm8086.Command.Host.Text.Numeric

/-!
# Letters and numbers

The characters of every script that are letters or numbers.
-/
namespace Disasm8086.Text

def isAlphanumeric (c : Char) : Bool :=
  isAlphabetic c || isNumeric c

end Disasm8086.Text
