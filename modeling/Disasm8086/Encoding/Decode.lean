import Disasm8086.Encoding.ModRM
import Disasm8086.Encoding.Opcode
import Disasm8086.Instruction
import Disasm8086.Reader

/-!
# Reading instructions

One instruction is read as opcode, addressing byte, displacement and immediate, in this order and
as far as its form has them. A fault is found where the part at fault is reached: the operation
of the immediate group is looked at after the displacement and before the immediate.
-/
namespace Disasm8086

open Read

/-- The operand selected by a mode and an `rm` field, with the displacement that follows. -/
def Operand.read (mode rm : UInt8) (width : Width) : Read Operand :=
  let rm := rm &&& 7
  match AddressingMode.ofBits? mode with
  | none => throw (.addressingMode mode)
  | some .register => return .reg (.ofField rm width)
  | some .memory =>
    if rm = AddressingMode.directAddress then do return .mem (.direct (← word))
    else return .mem (.based rm 0)
  | some .memoryDisplacement8 => do return .mem (.based rm (Word.signExtend (← byte)))
  | some .memoryDisplacement16 => do return .mem (.based rm (← word).toInt16)

namespace Instruction

/-- The addressing byte and its operand: the `reg` field and what `mode` and `rm` select. -/
def readModRM (width : Width) : Read (UInt8 × Operand) := do
  let fields := ModRM.ofByte (← byte)
  let operand ← Operand.read fields.mode fields.rm width
  return (fields.reg, operand)

/-- The immediate of an addition. Opcode `83` widens one signed byte to a word. -/
def readAddend (opcode : UInt8) : Read Immediate :=
  if opcode = 0x81 then do return .ofValue (← word) .word
  else if opcode = 0x83 then do return .ofValue (Word.signExtend (← byte)).toUInt16 .word
  else do return .ofValue (← byte).toUInt16 .byte

/-- The immediate of a subtraction, of the width that the opcode gives. -/
def readSubtrahend (opcode : UInt8) : Read Immediate := do
  return .ofValue (← number (Opcode.width opcode)) (Opcode.width opcode)

/-- What follows an opcode of the immediate group. -/
def readGroup (opcode : UInt8) : Read Instruction := do
  let (reg, operand) ← readModRM (Opcode.width opcode)
  match GroupOperation.ofBits? reg with
  | some .add => return .add operand (.imm (← readAddend opcode)) false
  | some .sub => return .sub operand (← readSubtrahend opcode)
  | none => throw (.groupOperation reg)

/-- What follows an opcode of each family. -/
def readFamily (opcode : UInt8) : Family → Read Instruction
  | .registerMove => do
    let width := Opcode.width opcode
    let (reg, operand) ← readModRM width
    let register := .reg (.ofField reg width)
    return if Opcode.direction opcode then .mov register operand else .mov operand register
  | .immediateMove => do
    let width := Opcode.immediateWidth opcode
    let value ← number width
    return .movImmediate (.ofField opcode width) (width.truncate value) width
  | .immediateGroup => readGroup opcode
  | .registerAdd => do
    let width := Opcode.width opcode
    let (reg, operand) ← readModRM width
    return .add operand (.reg (.ofField reg width)) (Opcode.direction opcode)

/-- What follows an opcode. -/
def readOpcode (opcode : UInt8) : Read Instruction :=
  match Family.ofOpcode? opcode with
  | some family => readFamily opcode family
  | none => throw (.unknownOpcode opcode)

/-- One instruction. After a success the reader stands behind its last byte. -/
def read : Read Instruction := do
  readOpcode (← byte)

end Instruction

/-- An operand is read in a window of two bytes, and only a mode that there is not is a fault. -/
theorem Operand.within_read (mode rm : UInt8) (width : Width) :
    Within (fun fault => fault = .addressingMode mode ∧ AddressingMode.ofBits? mode = none) 2
      (Operand.read mode rm width) := by
  unfold Operand.read
  simp only
  split
  · rename_i hmode
    exact .throw 2 ⟨rfl, hmode⟩ (by simp)
  · exact .pure 2 _
  · split
    · exact within_word.bind fun _ => .pure 0 _
    · exact .pure 2 _
  · exact within_byte.bind fun _ => .pure 0 _
  · exact within_word.bind fun _ => .pure 0 _

namespace Instruction

/-- The faults of an instruction whose bytes have not run out. -/
def Rejects : Fault → Prop
  | .unknownOpcode opcode => Family.ofOpcode? opcode = none
  | .groupOperation reg => GroupOperation.ofBits? reg = none
  | .addressingMode _ => False
  | .endOfInput _ => False

theorem within_readModRM {faults : Fault → Prop} (width : Width) :
    Within faults 3 (readModRM width) := by
  refine .byte (by decide) fun b => ?_
  -- The mode is two bits of the addressing byte, so the operand has no fault of its own.
  have hread := Operand.within_read (ModRM.ofByte b).mode (ModRM.ofByte b).rm width
  have hoperand : Within faults 2 (Operand.read (ModRM.ofByte b).mode (ModRM.ofByte b).rm width) :=
    hread.imp fun _ h => absurd h.2 (AddressingMode.ofBits?_mode_ne_none b)
  exact hoperand.bind fun _ => .pure 0 _

theorem within_readAddend {faults : Fault → Prop} (opcode : UInt8) :
    Within faults 2 (readAddend opcode) := by
  unfold readAddend
  split
  · exact within_word.bind fun _ => .pure 0 _
  · split <;> exact within_byte.bind fun _ => .pure 0 _

theorem within_readSubtrahend {faults : Fault → Prop} (opcode : UInt8) :
    Within faults 2 (readSubtrahend opcode) :=
  (within_number _).bind fun _ => .pure 0 _

theorem within_readGroup (opcode : UInt8) : Within Rejects 5 (readGroup opcode) := by
  refine Within.bind (n := 2) (within_readModRM _) fun (reg, operand) => ?_
  simp only
  split
  · exact (within_readAddend _).bind fun _ => .pure 0 _
  · exact (within_readSubtrahend _).bind fun _ => .pure 0 _
  · rename_i hreg
    exact .throw 2 hreg (by simp)

theorem within_readFamily (opcode : UInt8) (family : Family) :
    Within Rejects 5 (readFamily opcode family) := by
  cases family with
  | registerMove =>
    refine Within.bind (n := 2) (within_readModRM _) fun _ => ?_
    simp only
    split <;> exact .pure 2 _
  | immediateMove => exact (within_number _).bind fun _ => .pure 3 _
  | immediateGroup => exact within_readGroup _
  | registerAdd => exact (within_readModRM _).bind fun _ => .pure 2 _

theorem within_readOpcode (opcode : UInt8) : Within Rejects 5 (readOpcode opcode) := by
  unfold readOpcode
  split
  · exact within_readFamily _ _
  · rename_i hfamily
    exact .throw 5 hfamily (by simp)

/-- An instruction is read in a window of six bytes. -/
theorem within_read : Within Rejects 6 read :=
  .byte (by decide) within_readOpcode

theorem stepwise_readOpcode (opcode : UInt8) : Stepwise (readOpcode opcode) :=
  (within_readOpcode opcode).stepwise

theorem stepwise_read : Stepwise read :=
  within_read.stepwise

/-- An instruction has at least its opcode. -/
theorem read_shortens {reader later : Reader} {instruction : Instruction}
    (h : read reader = .ok instruction later) : later.rest.length < reader.rest.length := by
  obtain ⟨position, _ | ⟨opcode, rest⟩⟩ := reader
  · cases h
  · have hopcode : readOpcode opcode ⟨position + 1, rest⟩ = .ok instruction later := h
    exact Nat.lt_succ_of_le ((stepwise_readOpcode opcode).forward.of_ok hopcode).length_le

end Instruction

end Disasm8086
