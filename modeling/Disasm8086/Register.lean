import Disasm8086.Width

/-!
# Registers

A register is a register code at a width. Only the low three bits of a code select the register:
a code above seven is kept as it is and names the same register as its low bits.
-/
namespace Disasm8086

structure Register where
  code : UInt8
  width : Width
  deriving DecidableEq, Repr

namespace Register

/-- The register selected by a three-bit field; other bits of `field` are dropped. -/
def ofField (field : UInt8) (width : Width) : Register :=
  ⟨field &&& 7, width⟩

/-- Register names at each width, in the order of their codes. -/
def names : Width → Vector String 8
  | .byte => #v["al", "cl", "dl", "bl", "ah", "ch", "dh", "bh"]
  | .word => #v["ax", "cx", "dx", "bx", "sp", "bp", "si", "di"]

def name (register : Register) : String :=
  (names register.width)[register.code.toNat % 8]

end Register

end Disasm8086
