import Disasm8086.Address
import Disasm8086.Register

/-!
# Operands

An operand is a register, a memory address or an immediate number.
-/
namespace Disasm8086

/-- A number that is part of the instruction, with the width at which it is used. -/
structure Immediate where
  value : UInt16
  width : Width
  deriving DecidableEq, Repr

namespace Immediate

/-- The immediate that holds `value` without the bits above `width`. -/
def ofValue (value : UInt16) (width : Width) : Immediate :=
  ⟨width.truncate value, width⟩

def text (immediate : Immediate) : String :=
  toString immediate.value.toNat

end Immediate

inductive Operand where
  | reg : Register → Operand
  | mem : Address → Operand
  | imm : Immediate → Operand
  deriving DecidableEq, Repr

def Operand.text : Operand → String
  | .reg register => register.name
  | .mem address => address.text
  | .imm immediate => immediate.text

end Disasm8086
