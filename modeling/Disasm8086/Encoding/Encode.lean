import Disasm8086.Encoding.ModRM
import Disasm8086.Instruction
import Disasm8086.Word

/-!
# Writing instructions

All byte strings that an instruction of the subset may be written as. Many instructions have
several: two registers go either way round, a small displacement fits one byte or two, and a small
immediate may be written as a signed byte. An instruction that the subset cannot write has none.
-/
namespace Disasm8086

/-- The bit that selects a width in an opcode. -/
def Width.bit : Width → UInt8
  | .byte => 0
  | .word => 1

/-- The bytes of a number of the given width. -/
def Width.toBytes (value : UInt16) : Width → List UInt8
  | .byte => [value.toUInt8]
  | .word => Word.toBytes value

/-- The forms of a displacement: none, a signed byte, a word. -/
def Address.encodingsBased (field rm : UInt8) (displacement : Int16) : List (List UInt8) :=
  (if displacement = 0 ∧ rm ≠ 6 then [[ModRM.toByte ⟨0b00, field, rm⟩]] else []) ++
  (if -128 ≤ displacement ∧ displacement ≤ 127 then
    [[ModRM.toByte ⟨0b01, field, rm⟩, displacement.toUInt16.toUInt8]] else []) ++
  [ModRM.toByte ⟨0b10, field, rm⟩ :: Word.toBytes displacement.toUInt16]

/-- The addressing bytes that hold `field` and select an operand of an instruction of this width,
each with its displacement. -/
def Operand.encodings (field : UInt8) (width : Width) : Operand → List (List UInt8)
  | .reg register =>
    if register.code < 8 ∧ register.width = width then
      [[ModRM.toByte ⟨0b11, field, register.code⟩]]
    else []
  | .mem (.direct address) => [ModRM.toByte ⟨0b00, field, 6⟩ :: Word.toBytes address]
  | .mem (.based rm displacement) =>
    if rm < 8 then Address.encodingsBased field rm displacement else []
  | .imm _ => []

namespace Instruction

/-- A register and an operand of its width, behind an opcode that ends in the width bit. -/
def encodingsRegister (opcode : UInt8) (register : Register) (operand : Operand) :
    List (List UInt8) :=
  if register.code < 8 then
    (operand.encodings register.code register.width).map ((opcode + register.width.bit) :: ·)
  else []

/-- An operand and an immediate, behind an opcode of the immediate group. -/
def encodingsGroup (opcode field : UInt8) (operand : Operand) (width : Width)
    (immediate : List UInt8) : List (List UInt8) :=
  (operand.encodings field width).map fun addressing => opcode :: addressing ++ immediate

/-- A word that is a sign-extended byte has a short form in an addition. -/
def encodingsAddend (operand : Operand) : Immediate → List (List UInt8)
  | ⟨value, .byte⟩ =>
    if Width.byte.truncate value = value then
      [0x80, 0x82].flatMap fun opcode => encodingsGroup opcode 0 operand .byte [value.toUInt8]
    else []
  | ⟨value, .word⟩ =>
    encodingsGroup 0x81 0 operand .word (Word.toBytes value) ++
    (if (Word.signExtend value.toUInt8).toUInt16 = value then
      encodingsGroup 0x83 0 operand .word [value.toUInt8] else [])

/-- The immediate of a subtraction always has the full width. -/
def encodingsSubtrahend (operand : Operand) : Immediate → List (List UInt8)
  | ⟨value, .byte⟩ =>
    if Width.byte.truncate value = value then
      [0x80, 0x82].flatMap fun opcode => encodingsGroup opcode 5 operand .byte [value.toUInt8]
    else []
  | ⟨value, .word⟩ =>
    [0x81, 0x83].flatMap fun opcode => encodingsGroup opcode 5 operand .word (Word.toBytes value)

def encodings : Instruction → List (List UInt8)
  | .mov dst src =>
    (match src with
      | .reg register => encodingsRegister 0x88 register dst
      | _ => []) ++
    (match dst with
      | .reg register => encodingsRegister 0x8A register src
      | _ => [])
  | .movImmediate dst value width =>
    if dst.code < 8 ∧ dst.width = width ∧ width.truncate value = value then
      [(0xB0 + 8 * width.bit + dst.code) :: width.toBytes value]
    else []
  | .add a (.reg register) direction =>
    encodingsRegister (if direction then 0x02 else 0x00) register a
  | .add a (.imm immediate) false => encodingsAddend a immediate
  | .add .. => []
  | .sub dst immediate => encodingsSubtrahend dst immediate
  | .cmp .. => []

end Instruction

end Disasm8086
