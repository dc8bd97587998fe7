import Disasm8086.Width

/-!
# Opcodes

An opcode belongs to the first family whose fixed bits it has; the other bits of the opcode are
fields of the instruction.
-/
namespace Disasm8086

/-- Groups of opcodes that share one layout. -/
inductive Family where
  /-- `100010dw`: move between a register and a register or memory. -/
  | registerMove
  /-- `1011wreg`: move an immediate to a register. -/
  | immediateMove
  /-- `100000sw`: an operation of the immediate group on a register or memory. -/
  | immediateGroup
  /-- `000000dw`: add a register and a register or memory. -/
  | registerAdd
  deriving DecidableEq, Repr

namespace Family

/-- In order of the test: a family, the mask of its fixed bits, and their value. -/
def patterns : List (Family × UInt8 × UInt8) :=
  [(.registerMove, 0b11111100, 0b10001000),
   (.immediateMove, 0b11110000, 0b10110000),
   (.immediateGroup, 0b11111100, 0b10000000),
   (.registerAdd, 0b11111100, 0b00000000)]

def ofOpcode? (opcode : UInt8) : Option Family :=
  (patterns.find? fun (_, mask, value) => opcode &&& mask = value).map (·.1)

end Family

namespace Opcode

/-- The width bit of the families that end in `w`. -/
def width (opcode : UInt8) : Width :=
  .ofBit (opcode &&& 0b1 != 0)

/-- The direction bit of the families that end in `dw`. -/
def direction (opcode : UInt8) : Bool :=
  opcode &&& 0b10 != 0

/-- The width bit of `1011wreg`. -/
def immediateWidth (opcode : UInt8) : Width :=
  .ofBit (opcode &&& 0b1000 != 0)

end Opcode

/-- The operations of the immediate group in the subset, selected by the `reg` field. -/
inductive GroupOperation where
  | add
  | sub
  deriving DecidableEq, Repr

namespace GroupOperation

def bits : GroupOperation → UInt8
  | .add => 0b000
  | .sub => 0b101

def ofBits? (bits : UInt8) : Option GroupOperation :=
  [add, sub].find? (·.bits = bits)

end GroupOperation

end Disasm8086
