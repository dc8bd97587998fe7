import Mathlib.Logic.Relation
import Disasm8086.Proofs.Factorization

/-!
# Aliases of an encoding

A text does not tell which of the byte strings of an instruction it was read from. The aliases are
the steps from one byte string to another one with the same text: the direction of a move or an
addition between registers, the form of a displacement, the two opcodes of a byte operation, and
the two forms of a word immediate. Byte strings have the same text exactly if such steps connect
them.
-/
namespace Disasm8086

open Relation

/-- The opcodes of the moves and additions that name a register in the addressing byte. -/
def Opcode.registers : List UInt8 :=
  [0x88, 0x89, 0x8A, 0x8B, 0x00, 0x01, 0x02, 0x03]

/-- The opcodes that an addressing byte follows. -/
def Opcode.addressed : List UInt8 :=
  registers ++ [0x80, 0x81, 0x82, 0x83]

/-- A step between two byte strings that are shown as the same text. -/
inductive Alias : List UInt8 → List UInt8 → Prop where
  /-- Two registers go either way round: the direction bit is the second of the opcode. -/
  | direction {opcode field rm : UInt8} (hopcode : opcode ∈ Opcode.registers) (hfield : field < 8)
    (hrm : rm < 8) : Alias [opcode, ModRM.toByte ⟨0b11, field, rm⟩]
      [opcode ^^^ 0b10, ModRM.toByte ⟨0b11, rm, field⟩]
  /-- A displacement is left out, or one byte, or two. -/
  | displacement {opcode mode mode' field rm : UInt8} {width : Width} {displacement : Int16}
    {bytes bytes' : List UInt8} (hopcode : opcode ∈ Opcode.addressed) (hfield : field < 8)
    (hrm : rm < 8) (h : Operand.Completes width mode rm (.mem (.based rm displacement)) bytes)
    (h' : Operand.Completes width mode' rm (.mem (.based rm displacement)) bytes')
    (rest : List UInt8) : Alias (opcode :: ModRM.toByte ⟨mode, field, rm⟩ :: (bytes ++ rest))
      (opcode :: ModRM.toByte ⟨mode', field, rm⟩ :: (bytes' ++ rest))
  | byteOpcode (rest : List UInt8) : Alias (0x80 :: rest) (0x82 :: rest)
  /-- A word that is added may be a sign-extended byte. -/
  | addend {operand : Operand} {bytes : List UInt8} (h : operand.Encodes 0 .word bytes)
    (byte : UInt8) : Alias (0x81 :: (bytes ++ Word.toBytes (Word.signExtend byte).toUInt16))
      (0x83 :: (bytes ++ [byte]))
  | subtrahend {operand : Operand} {bytes : List UInt8} (h : operand.Encodes 5 .word bytes)
    (value : UInt16) : Alias (0x81 :: (bytes ++ Word.toBytes value))
      (0x83 :: (bytes ++ Word.toBytes value))

/-- The text of the instruction that a byte string is read as. -/
def ShownAs (bytes : List UInt8) (text : String) : Prop :=
  ∃ instruction : Instruction, instruction.Encodes bytes ∧ instruction.text = text

theorem Instruction.Encodes.unique {i j : Instruction} {bytes : List UInt8} (h : i.Encodes bytes)
    (h' : j.Encodes bytes) : i = j :=
  (Instruction.accepts_read.unique h h' (@rfl _ (bytes ++ []))).1

theorem Instruction.Encodes.shownAs_iff {instruction : Instruction} {bytes : List UInt8}
    (h : instruction.Encodes bytes) {text : String} :
    ShownAs bytes text ↔ instruction.text = text := by
  constructor
  · intro hshown
    obtain ⟨i, hi, htext⟩ := hshown
    rw [h.unique hi]
    exact htext
  · intro htext
    exact ⟨instruction, h, htext⟩

/-- A registers-only encoding and the one with the other direction have the same text. -/
theorem shownAs_direction_iff {field rm : UInt8} (hfield : field < 8) (hrm : rm < 8)
    (width : Width) (text : String) :
    (ShownAs [0x88 + width.bit, ModRM.toByte ⟨0b11, field, rm⟩] text ↔
      ShownAs [0x8A + width.bit, ModRM.toByte ⟨0b11, rm, field⟩] text) ∧
    (ShownAs [0x00 + width.bit, ModRM.toByte ⟨0b11, field, rm⟩] text ↔
      ShownAs [0x02 + width.bit, ModRM.toByte ⟨0b11, rm, field⟩] text) := by
  have hoperand : (Operand.reg ⟨rm, width⟩).Encodes field width
      [ModRM.toByte ⟨0b11, field, rm⟩] := .mk hrm (.register rfl)
  have hoperand' : (Operand.reg ⟨field, width⟩).Encodes rm width
      [ModRM.toByte ⟨0b11, rm, field⟩] := .mk hfield (.register rfl)
  constructor
  · rw [(Instruction.Encodes.movFrom hfield hoperand).shownAs_iff,
      (Instruction.Encodes.movTo hrm hoperand').shownAs_iff]
  · have h := Instruction.Encodes.add false hfield hoperand
    have h' := Instruction.Encodes.add true hrm hoperand'
    rw [if_neg Bool.false_ne_true] at h
    rw [if_pos rfl] at h'
    rw [h.shownAs_iff, h'.shownAs_iff]
    exact Iff.rfl

/-- The begin of a text tells where the addressing in front of it ends. -/
theorem Operand.Encodes.append_inj {operand operand' : Operand} {field field' : UInt8}
    {width : Width} {bytes bytes' rest rest' : List UInt8} (hfield : field < 8)
    (hfield' : field' < 8) (h : operand.Encodes field width bytes)
    (h' : operand'.Encodes field' width bytes') (he : bytes ++ rest = bytes' ++ rest') :
    field = field' ∧ operand = operand' ∧ bytes = bytes' ∧ rest = rest' := by
  have hform : field < 8 ∧ operand.Encodes field width bytes := ⟨hfield, h⟩
  have hform' : field' < 8 ∧ operand'.Encodes field' width bytes' := ⟨hfield', h'⟩
  obtain ⟨hfound, hbytes, hrest⟩ := @Read.Accepts.unique _ _ _
    (Instruction.accepts_readModRM width) (field, operand) (field', operand') _ _ _ _
    hform hform' he
  cases hfound
  exact ⟨rfl, rfl, hbytes, hrest⟩

/-- An instruction stays the same when its addressing is replaced by another of its operand. -/
theorem Instruction.Encodes.replace {instruction : Instruction} {operand : Operand}
    {opcode field : UInt8} {bytes bytes' rest : List UInt8}
    (h : instruction.Encodes (opcode :: (bytes ++ rest))) (hopcode : opcode ∈ Opcode.addressed)
    (hfield : field < 8) (hbytes : ∀ width, operand.Encodes field width bytes)
    (hbytes' : ∀ width, operand.Encodes field width bytes') :
    instruction.Encodes (opcode :: (bytes' ++ rest)) := by
  -- An addressing ends where its operand ends, so `bytes` is the addressing of the instruction.
  generalize he : opcode :: (bytes ++ rest) = whole at h
  cases h with
  | @movFrom code width operand' taken hcode h =>
    obtain ⟨rfl, htail⟩ := List.cons.inj he
    rw [← List.append_nil taken] at htail
    obtain ⟨rfl, rfl, rfl, rfl⟩ := Operand.Encodes.append_inj hfield hcode (hbytes width) h htail
    rw [List.append_nil]
    exact .movFrom hcode (hbytes' width)
  | @movTo code width operand' taken hcode h =>
    obtain ⟨rfl, htail⟩ := List.cons.inj he
    rw [← List.append_nil taken] at htail
    obtain ⟨rfl, rfl, rfl, rfl⟩ := Operand.Encodes.append_inj hfield hcode (hbytes width) h htail
    rw [List.append_nil]
    exact .movTo hcode (hbytes' width)
  | @movImmediate code width value hcode hfits =>
    have hnot : ∀ code : UInt8, code < 8 → ∀ width : Width,
        0xB0 + 8 * width.bit + code ∉ Opcode.addressed := by
      intro code hcode width
      revert code
      cases width <;> decide +kernel
    obtain ⟨rfl, -⟩ := List.cons.inj he
    exact absurd hopcode (hnot code hcode width)
  | @add code width operand' taken direction hcode h =>
    obtain ⟨rfl, htail⟩ := List.cons.inj he
    rw [← List.append_nil taken] at htail
    obtain ⟨rfl, rfl, rfl, rfl⟩ := Operand.Encodes.append_inj hfield hcode (hbytes width) h htail
    rw [List.append_nil]
    exact .add direction hcode (hbytes' width)
  | addImmediate h h' =>
    obtain ⟨rfl, htail⟩ := List.cons.inj he
    obtain ⟨rfl, rfl, rfl, rfl⟩ :=
      Operand.Encodes.append_inj hfield (by decide) (hbytes _) h htail
    exact .addImmediate (hbytes' _) h'
  | sub h h' =>
    obtain ⟨rfl, htail⟩ := List.cons.inj he
    obtain ⟨rfl, rfl, rfl, rfl⟩ :=
      Operand.Encodes.append_inj hfield (by decide) (hbytes _) h htail
    exact .sub (hbytes' _) h'

/-- Both opcodes of a byte operation of the group stand for the same instructions. -/
theorem Instruction.Encodes.byteOpcode {instruction : Instruction} {opcode opcode' : UInt8}
    {rest : List UInt8} (hopcode : opcode = 0x80 ∨ opcode = 0x82)
    (hopcode' : opcode' = 0x80 ∨ opcode' = 0x82) (h : instruction.Encodes (opcode :: rest)) :
    instruction.Encodes (opcode' :: rest) := by
  obtain ⟨opcode, rest, he, family, hfamily, hfollows⟩ := h.follows
  cases he
  have hgroup : Family.ofOpcode? opcode = some .immediateGroup := by
    rcases hopcode with rfl | rfl <;> decide
  cases hfamily.symm.trans hgroup
  have hbyte : Opcode.width opcode = .byte := by
    rcases hopcode with rfl | rfl <;> decide
  obtain ⟨operand, immediate, first, second, rfl, ⟨hfirst, hsecond, rfl⟩ |
    ⟨hfirst, hsecond, rfl⟩⟩ := hfollows
  · have hwidth := hbyte.symm.trans (width_of_addend hsecond)
    cases hsecond with
    | byte _ hvalue => exact .addImmediate (hbyte ▸ hfirst) (.byte hopcode' hvalue)
    | word value => cases hwidth
    | short hvalue => cases hwidth
  · have hwidth := hbyte.symm.trans (width_of_subtrahend hsecond)
    cases hsecond with
    | byte _ hvalue => exact .sub (hbyte ▸ hfirst) (.byte hopcode' hvalue)
    | word _ value => cases hwidth

/-- The other forms of a displacement complete the same operand, whatever the width. -/
theorem Operand.Completes.of_memory {width width' : Width} {mode rm : UInt8} {address : Address}
    {bytes : List UInt8} (h : Operand.Completes width mode rm (.mem address) bytes) :
    Operand.Completes width' mode rm (.mem address) bytes := by
  cases h with
  | direct hmode hrm address => exact .direct hmode hrm address
  | bare hmode hrm => exact .bare hmode hrm
  | short hmode h => exact .short hmode h
  | long hmode displacement => exact .long hmode displacement

theorem Operand.Encodes.of_completes {width : Width} {mode field rm : UInt8} {address : Address}
    {bytes : List UInt8} (hrm : rm < 8)
    (h : Operand.Completes width mode rm (.mem address) bytes) (width' : Width) :
    (Operand.mem address).Encodes field width' (ModRM.toByte ⟨mode, field, rm⟩ :: bytes) :=
  .mk hrm h.of_memory

/-- A step to an alias keeps the text. -/
theorem Alias.shownAs_iff {bytes bytes' : List UInt8} (h : Alias bytes bytes') (text : String) :
    ShownAs bytes text ↔ ShownAs bytes' text := by
  have hsame {x y : List UInt8} (h : ∀ i : Instruction, i.Encodes x → i.Encodes y)
      (h' : ∀ i : Instruction, i.Encodes y → i.Encodes x) : ShownAs x text ↔ ShownAs y text :=
    ⟨fun ⟨i, hi, htext⟩ => ⟨i, h i hi, htext⟩, fun ⟨i, hi, htext⟩ => ⟨i, h' i hi, htext⟩⟩
  cases h with
  | @direction opcode field rm hopcode hfield hrm =>
    have h (width : Width) := shownAs_direction_iff hfield hrm width text
    have h' (width : Width) := shownAs_direction_iff hrm hfield width text
    simp only [Opcode.registers, List.mem_cons, List.not_mem_nil, or_false] at hopcode
    rcases hopcode with rfl | rfl | rfl | rfl | rfl | rfl | rfl | rfl
    · exact (h .byte).1
    · exact (h .word).1
    · exact (h' .byte).1.symm
    · exact (h' .word).1.symm
    · exact (h .byte).2
    · exact (h .word).2
    · exact (h' .byte).2.symm
    · exact (h' .word).2.symm
  | displacement hopcode hfield hrm h h' rest =>
    exact hsame
      (fun i hi => Instruction.Encodes.replace hi hopcode hfield
        (fun width => .of_completes hrm h width) (fun width => .of_completes hrm h' width))
      (fun i hi => Instruction.Encodes.replace hi hopcode hfield
        (fun width => .of_completes hrm h' width) (fun width => .of_completes hrm h width))
  | byteOpcode rest =>
    exact hsame (fun i hi => hi.byteOpcode (.inl rfl) (.inr rfl))
      (fun i hi => hi.byteOpcode (.inr rfl) (.inl rfl))
  | @addend operand bytes h byte =>
    have hshort := Immediate.Addend.short (Word.toUInt16_signExtend_range byte)
    rw [Word.toUInt8_signExtend] at hshort
    have hlong := Immediate.Addend.word (Word.signExtend byte).toUInt16
    rw [(Instruction.Encodes.addImmediate h hlong).shownAs_iff,
      (Instruction.Encodes.addImmediate h hshort).shownAs_iff]
  | @subtrahend operand bytes h value =>
    have hfirst := Immediate.Subtrahend.word (.inl (@rfl _ (0x81 : UInt8))) value
    have hsecond := Immediate.Subtrahend.word (.inr (@rfl _ (0x83 : UInt8))) value
    rw [(Instruction.Encodes.sub h hfirst).shownAs_iff,
      (Instruction.Encodes.sub h hsecond).shownAs_iff]

end Disasm8086
