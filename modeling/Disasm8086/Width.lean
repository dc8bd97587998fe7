/-!
# Operand widths

An instruction works on bytes or on words; its width bit says which.
-/
namespace Disasm8086

inductive Width where
  | byte
  | word
  deriving DecidableEq, Repr

namespace Width

/-- The width selected by a width bit: set for words. -/
def ofBit (bit : Bool) : Width :=
  if bit then .word else .byte

/-- The bits of a word that belong to the width. -/
def mask : Width → UInt16
  | .byte => 0x00FF
  | .word => 0xFFFF

/-- Drops the bits of `value` above the width. -/
def truncate (width : Width) (value : UInt16) : UInt16 :=
  value &&& width.mask

/-- The size keyword of the assembler. -/
def keyword : Width → String
  | .byte => "byte"
  | .word => "word"

end Width

end Disasm8086
