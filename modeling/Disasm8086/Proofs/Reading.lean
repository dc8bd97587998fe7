import Disasm8086.Encoding.Decode
import Disasm8086.Proofs.Accepts
import Disasm8086.Proofs.Format

/-!
# Reading accepts the format

Each part of the reader of instructions accepts its part of the format, so reading succeeds with
an instruction exactly where one of its byte strings stands, and takes that byte string.
-/
namespace Disasm8086

open Read

theorem Operand.accepts_read (mode rm : UInt8) (width : Width) :
    Accepts (Operand.read mode rm width) (Operand.Completes width mode (rm &&& 7)) := by
  have hmask : rm &&& 7 &&& 7 = rm &&& 7 := Byte.and_seven_of_lt (Byte.and_seven_lt rm)
  unfold Operand.read
  simp only [Register.ofField, hmask]
  generalize rm &&& 7 = rm
  cases hmode : AddressingMode.ofBits? mode with
  | none =>
    refine (accepts_throw _).congr fun operand bytes => ⟨False.elim, ?_⟩
    rintro (rfl | rfl | rfl | rfl | rfl) <;> cases hmode
  | some addressing =>
    have hbits : addressing.bits = mode := by simpa using List.find?_some hmode
    subst hbits
    cases addressing with
    | register =>
      refine (accepts_pure _).congr fun operand bytes => ⟨?_, ?_⟩
      · intro hform
        obtain ⟨rfl, rfl⟩ := hform
        exact .register rfl
      · intro hform
        rcases hform with _ | ⟨h⟩ | ⟨h⟩ | ⟨h⟩ | ⟨h⟩
        · exact ⟨rfl, rfl⟩
        all_goals cases h
    | memory =>
      simp only
      split
      · rename_i hrm
        refine (accepts_word.map _).congr fun operand bytes => ⟨?_, ?_⟩
        · intro hform
          obtain ⟨address, rfl, rfl⟩ := hform
          exact .direct rfl hrm address
        · intro hform
          rcases hform with h | ⟨-, -, address⟩ | ⟨-, h⟩ | ⟨h⟩ | ⟨h⟩
          · cases h
          · exact ⟨address, rfl, rfl⟩
          · exact absurd hrm h
          · cases h
          · cases h
      · rename_i hrm
        refine (accepts_pure _).congr fun operand bytes => ⟨?_, ?_⟩
        · intro hform
          obtain ⟨rfl, rfl⟩ := hform
          exact .bare rfl hrm
        · intro hform
          rcases hform with h | ⟨-, h⟩ | - | ⟨h⟩ | ⟨h⟩
          · cases h
          · exact absurd h hrm
          · exact ⟨rfl, rfl⟩
          · cases h
          · cases h
    | memoryDisplacement8 =>
      refine (accepts_byte.map _).congr fun operand bytes => ⟨?_, ?_⟩
      · intro hform
        obtain ⟨byte, rfl, rfl⟩ := hform
        have h := @Completes.short width _ rm rfl _ (Word.signExtend_range byte)
        rwa [Word.toUInt8_signExtend] at h
      · intro hform
        rcases hform with h | ⟨h⟩ | ⟨h⟩ | ⟨-, h⟩ | ⟨h⟩
        · cases h
        · cases h
        · cases h
        · exact ⟨_, rfl, by rw [Word.signExtend_toUInt8 h]⟩
        · cases h
    | memoryDisplacement16 =>
      refine (accepts_word.map _).congr fun operand bytes => ⟨?_, ?_⟩
      · intro hform
        obtain ⟨value, rfl, rfl⟩ := hform
        exact .long rfl value.toInt16
      · intro hform
        rcases hform with h | ⟨h⟩ | ⟨h⟩ | ⟨h⟩ | ⟨-, displacement⟩
        · cases h
        · cases h
        · cases h
        · cases h
        · exact ⟨displacement.toUInt16, rfl, by rw [Int16.toInt16_toUInt16]⟩

namespace Instruction

theorem accepts_readModRM (width : Width) : Accepts (readModRM width) fun found bytes =>
    found.1 < 8 ∧ found.2.Encodes found.1 width bytes := by
  refine (accepts_byte_bind fun b => (Operand.accepts_read _ _ width).map _).congr ?_
  rintro ⟨field, operand⟩ bytes
  constructor
  · intro hform
    obtain ⟨first, rest, ⟨_, h, he⟩, rfl⟩ := hform
    cases he
    rw [Byte.and_seven_of_lt (ModRM.rm_ofByte_lt first)] at h
    have hencodes := @Operand.Encodes.mk (ModRM.ofByte first).reg _ _ _ _ _
      (ModRM.rm_ofByte_lt first) h
    rw [ModRM.toByte_ofByte] at hencodes
    exact ⟨ModRM.reg_ofByte_lt first, hencodes⟩
  · intro hform
    obtain ⟨hfield, @⟨mode, rm, rest, hrm, h⟩⟩ := hform
    have hmode := h.mode_lt
    refine ⟨_, rest, ⟨operand, ?_, ?_⟩, rfl⟩
    · rw [ModRM.ofByte_toByte hmode hfield hrm, Byte.and_seven_of_lt hrm]
      exact h
    · rw [ModRM.ofByte_toByte hmode hfield hrm]

/-- An immediate of the full width. -/
theorem accepts_immediate (width : Width) :
    Accepts (do return Immediate.ofValue (← number width) width) fun immediate bytes =>
      immediate.width = width ∧ width.Fits immediate.value ∧
        bytes = width.toBytes immediate.value := by
  refine ((accepts_number width).map _).congr ?_
  rintro ⟨value, width'⟩ bytes
  constructor
  · intro hform
    obtain ⟨value, ⟨hfits, rfl⟩, he⟩ := hform
    rw [Immediate.ofValue, Width.truncate_eq_self_iff.mpr hfits] at he
    cases he
    exact ⟨rfl, hfits, rfl⟩
  · intro hform
    obtain ⟨rfl, hfits, rfl⟩ := hform
    exact ⟨value, ⟨hfits, rfl⟩, by rw [Immediate.ofValue, Width.truncate_eq_self_iff.mpr hfits]⟩

theorem accepts_readSubtrahend {opcode : UInt8}
    (hopcode : opcode = 0x80 ∨ opcode = 0x81 ∨ opcode = 0x82 ∨ opcode = 0x83) :
    Accepts (readSubtrahend opcode) (Immediate.Subtrahend opcode) := by
  refine (accepts_immediate _).congr ?_
  rintro ⟨value, width⟩ bytes
  constructor
  · intro hform
    obtain ⟨rfl, hfits, rfl⟩ := hform
    rcases hopcode with rfl | rfl | rfl | rfl
    · exact .byte (.inl rfl) hfits
    · exact .word (.inl rfl) value
    · exact .byte (.inr rfl) hfits
    · exact .word (.inr rfl) value
  · intro hform
    rcases hform with ⟨rfl | rfl, h⟩ | ⟨rfl | rfl, -⟩
    · exact ⟨rfl, h, rfl⟩
    · exact ⟨rfl, h, rfl⟩
    · exact ⟨rfl, trivial, rfl⟩
    · exact ⟨rfl, trivial, rfl⟩

theorem accepts_readAddend {opcode : UInt8}
    (hopcode : opcode = 0x80 ∨ opcode = 0x81 ∨ opcode = 0x82 ∨ opcode = 0x83) :
    Accepts (readAddend opcode) (Immediate.Addend opcode) := by
  have hbyte (hopcode : opcode = 0x80 ∨ opcode = 0x82) :
      Accepts (do return Immediate.ofValue (← Read.byte).toUInt16 .byte)
        (Immediate.Addend opcode) := by
    have he : (do return Immediate.ofValue (← number .byte) .byte : Read Immediate) =
        do return Immediate.ofValue (← Read.byte).toUInt16 .byte := by
      simp only [number, bind_assoc, pure_bind]
    rw [← he]
    refine (accepts_immediate .byte).congr ?_
    rintro ⟨value, width⟩ bytes
    constructor
    · intro hform
      obtain ⟨rfl, hfits, rfl⟩ := hform
      exact .byte hopcode hfits
    · intro hform
      rcases hform with ⟨-, hfits⟩ | - | -
      · exact ⟨rfl, hfits, rfl⟩
      all_goals rcases hopcode with h | h <;> cases h
  rcases hopcode with rfl | rfl | rfl | rfl
  · exact hbyte (.inl rfl)
  · refine (accepts_immediate .word).congr ?_
    rintro ⟨value, width⟩ bytes
    constructor
    · intro hform
      obtain ⟨rfl, -, rfl⟩ := hform
      exact .word value
    · intro hform
      rcases hform with ⟨h | h, -⟩ | -
      · cases h
      · cases h
      · exact ⟨rfl, trivial, rfl⟩
  · exact hbyte (.inr rfl)
  · refine (accepts_byte.map _).congr fun immediate bytes => ⟨?_, ?_⟩
    · intro hform
      obtain ⟨b, rfl, rfl⟩ := hform
      have h := Immediate.Addend.short (Word.toUInt16_signExtend_range b)
      rwa [Word.toUInt8_signExtend, ← Width.truncate_word (Word.signExtend b).toUInt16] at h
    · intro hform
      rcases hform with ⟨h | h, -⟩ | - | h
      · cases h
      · cases h
      · refine ⟨_, rfl, ?_⟩
        rw [Immediate.ofValue, Width.truncate_word, Word.toUInt16_signExtend_toUInt8 h]

/-- What follows an opcode of each family, as an instruction and its bytes. -/
def Follows (opcode : UInt8) : Family → Instruction → List UInt8 → Prop
  | .registerMove, instruction, bytes =>
    ∃ field operand, field < 8 ∧ operand.Encodes field (Opcode.width opcode) bytes ∧
      instruction =
        if Opcode.direction opcode then .mov (.reg ⟨field, Opcode.width opcode⟩) operand
        else .mov operand (.reg ⟨field, Opcode.width opcode⟩)
  | .immediateMove, instruction, bytes =>
    ∃ value, (Opcode.immediateWidth opcode).Fits value ∧
      bytes = (Opcode.immediateWidth opcode).toBytes value ∧
      instruction = .movImmediate ⟨opcode &&& 7, Opcode.immediateWidth opcode⟩ value
        (Opcode.immediateWidth opcode)
  | .immediateGroup, instruction, bytes =>
    ∃ operand immediate first second, bytes = first ++ second ∧
      (operand.Encodes 0 (Opcode.width opcode) first ∧ immediate.Addend opcode second ∧
          instruction = .add operand (.imm immediate) false ∨
        operand.Encodes 5 (Opcode.width opcode) first ∧ immediate.Subtrahend opcode second ∧
          instruction = .sub operand immediate)
  | .registerAdd, instruction, bytes =>
    ∃ field operand, field < 8 ∧ operand.Encodes field (Opcode.width opcode) bytes ∧
      instruction =
        .add operand (.reg ⟨field, Opcode.width opcode⟩) (Opcode.direction opcode)

theorem ofField_of_lt {field : UInt8} (h : field < 8) (width : Width) :
    Register.ofField field width = ⟨field, width⟩ := by
  rw [Register.ofField, Byte.and_seven_of_lt h]

/-- A register and an operand of its width. -/
theorem accepts_register (width : Width) (f : Operand → Operand → Instruction) :
    Accepts (do
      let (field, operand) ← readModRM width
      return f (.reg (.ofField field width)) operand) fun instruction bytes =>
        ∃ field operand, field < 8 ∧ operand.Encodes field width bytes ∧
          instruction = f (.reg ⟨field, width⟩) operand := by
  refine ((accepts_readModRM width).map _).congr fun instruction bytes => ⟨?_, ?_⟩
  · intro hform
    obtain ⟨⟨field, operand⟩, ⟨hfield, h⟩, rfl⟩ := hform
    exact ⟨field, operand, hfield, h, by simp only [ofField_of_lt hfield]⟩
  · intro hform
    obtain ⟨field, operand, hfield, h, rfl⟩ := hform
    exact ⟨(field, operand), ⟨hfield, h⟩, by simp only [ofField_of_lt hfield]⟩

theorem field_of_ofBits? : ∀ field : UInt8,
    (GroupOperation.ofBits? field = some .add → field = 0) ∧
    (GroupOperation.ofBits? field = some .sub → field = 5) ∧
    (GroupOperation.ofBits? field = none → field ≠ 0 ∧ field ≠ 5) := by
  decide +kernel

/-- The operation of the group selected by the `reg` field, with its immediate. -/
theorem accepts_groupOperation {opcode : UInt8}
    (hopcode : opcode = 0x80 ∨ opcode = 0x81 ∨ opcode = 0x82 ∨ opcode = 0x83)
    (field : UInt8) (operand : Operand) :
    Accepts (match GroupOperation.ofBits? field with
      | some .add => do return .add operand (.imm (← readAddend opcode)) false
      | some .sub => do return .sub operand (← readSubtrahend opcode)
      | none => throw (.groupOperation field) : Read Instruction) fun instruction bytes =>
        ∃ immediate : Immediate,
          field = 0 ∧ immediate.Addend opcode bytes ∧
            instruction = .add operand (.imm immediate) false ∨
          field = 5 ∧ immediate.Subtrahend opcode bytes ∧ instruction = .sub operand immediate := by
  obtain ⟨hadd, hsub, hnone⟩ := field_of_ofBits? field
  split
  · rename_i h
    refine ((accepts_readAddend hopcode).map _).congr fun instruction bytes => ⟨?_, ?_⟩
    · intro hform
      obtain ⟨immediate, himmediate, rfl⟩ := hform
      exact ⟨immediate, .inl ⟨hadd h, himmediate, rfl⟩⟩
    · intro hform
      obtain ⟨immediate, ⟨-, himmediate, rfl⟩ | ⟨hfield, -⟩⟩ := hform
      · exact ⟨immediate, himmediate, rfl⟩
      · exact absurd ((hadd h).symm.trans hfield) (by decide)
  · rename_i h
    refine ((accepts_readSubtrahend hopcode).map _).congr fun instruction bytes => ⟨?_, ?_⟩
    · intro hform
      obtain ⟨immediate, himmediate, rfl⟩ := hform
      exact ⟨immediate, .inr ⟨hsub h, himmediate, rfl⟩⟩
    · intro hform
      obtain ⟨immediate, ⟨hfield, -⟩ | ⟨-, himmediate, rfl⟩⟩ := hform
      · exact absurd ((hsub h).symm.trans hfield) (by decide)
      · exact ⟨immediate, himmediate, rfl⟩
  · rename_i h
    refine (accepts_throw _).congr fun instruction bytes => ⟨False.elim, ?_⟩
    intro hform
    obtain ⟨immediate, ⟨hfield, -⟩ | ⟨hfield, -⟩⟩ := hform
    · exact (hnone h).1 hfield
    · exact (hnone h).2 hfield

theorem accepts_readGroup {opcode : UInt8}
    (hopcode : opcode = 0x80 ∨ opcode = 0x81 ∨ opcode = 0x82 ∨ opcode = 0x83) :
    Accepts (readGroup opcode) (Follows opcode .immediateGroup) := by
  refine ((accepts_readModRM _).bind fun found =>
    accepts_groupOperation hopcode found.1 found.2).congr fun instruction bytes => ⟨?_, ?_⟩
  · rintro ⟨⟨field, operand⟩, first, second, ⟨-, h⟩, ⟨immediate, ⟨hfield, himmediate, rfl⟩ |
      ⟨hfield, himmediate, rfl⟩⟩, rfl⟩
    · simp only at hfield
      subst hfield
      exact ⟨operand, immediate, first, second, rfl, .inl ⟨h, himmediate, rfl⟩⟩
    · simp only at hfield
      subst hfield
      exact ⟨operand, immediate, first, second, rfl, .inr ⟨h, himmediate, rfl⟩⟩
  · intro hform
    obtain ⟨operand, immediate, first, second, rfl, ⟨h, himmediate, rfl⟩ | ⟨h, himmediate, rfl⟩⟩ :=
      hform
    · exact ⟨(0, operand), first, second, ⟨show (0 : UInt8) < 8 by decide, h⟩,
        ⟨immediate, .inl ⟨rfl, himmediate, rfl⟩⟩, rfl⟩
    · exact ⟨(5, operand), first, second, ⟨show (5 : UInt8) < 8 by decide, h⟩,
        ⟨immediate, .inr ⟨rfl, himmediate, rfl⟩⟩, rfl⟩

theorem eq_of_immediateGroup : ∀ opcode : UInt8,
    Family.ofOpcode? opcode = some .immediateGroup →
      opcode = 0x80 ∨ opcode = 0x81 ∨ opcode = 0x82 ∨ opcode = 0x83 := by
  decide +kernel

theorem accepts_readFamily {opcode : UInt8} {family : Family}
    (hfamily : Family.ofOpcode? opcode = some family) :
    Accepts (readFamily opcode family) (Follows opcode family) := by
  cases family with
  | registerMove =>
    exact accepts_register (Opcode.width opcode) fun register operand =>
      if Opcode.direction opcode then .mov register operand else .mov operand register
  | immediateMove =>
    refine ((accepts_number _).map _).congr fun instruction bytes => ⟨?_, ?_⟩
    · intro hform
      obtain ⟨value, ⟨hfits, rfl⟩, rfl⟩ := hform
      exact ⟨value, hfits, rfl, by rw [Width.truncate_eq_self_iff.mpr hfits]; rfl⟩
    · intro hform
      obtain ⟨value, hfits, rfl, rfl⟩ := hform
      exact ⟨value, ⟨hfits, rfl⟩, by rw [Width.truncate_eq_self_iff.mpr hfits]; rfl⟩
  | immediateGroup =>
    exact accepts_readGroup (eq_of_immediateGroup opcode hfamily)
  | registerAdd =>
    exact accepts_register (Opcode.width opcode) fun register operand =>
      .add operand register (Opcode.direction opcode)

theorem accepts_readOpcode (opcode : UInt8) : Accepts (readOpcode opcode)
    fun instruction bytes => ∃ family, Family.ofOpcode? opcode = some family ∧
      Follows opcode family instruction bytes := by
  unfold readOpcode
  split
  · rename_i family hfamily
    refine (accepts_readFamily hfamily).congr fun instruction bytes => ?_
    simp [hfamily]
  · rename_i hfamily
    refine (accepts_throw _).congr fun instruction bytes => ?_
    simp [hfamily]

/-- The opcodes of a family, put together from their fields. -/
theorem eq_of_registerMove : ∀ opcode : UInt8, Family.ofOpcode? opcode = some .registerMove →
    opcode = (if Opcode.direction opcode then 0x8A else 0x88) + (Opcode.width opcode).bit := by
  decide +kernel

theorem eq_of_immediateMove : ∀ opcode : UInt8, Family.ofOpcode? opcode = some .immediateMove →
    opcode = 0xB0 + 8 * (Opcode.immediateWidth opcode).bit + (opcode &&& 7) := by
  decide +kernel

theorem eq_of_registerAdd : ∀ opcode : UInt8, Family.ofOpcode? opcode = some .registerAdd →
    opcode = (if Opcode.direction opcode then 2 else 0) + (Opcode.width opcode).bit := by
  decide +kernel

theorem width_of_addend {opcode : UInt8} {immediate : Immediate} {bytes : List UInt8}
    (h : immediate.Addend opcode bytes) : Opcode.width opcode = immediate.width := by
  rcases h with ⟨rfl | rfl, -⟩ | - | - <;> rfl

theorem width_of_subtrahend {opcode : UInt8} {immediate : Immediate} {bytes : List UInt8}
    (h : immediate.Subtrahend opcode bytes) : Opcode.width opcode = immediate.width := by
  rcases h with ⟨rfl | rfl, -⟩ | ⟨rfl | rfl, -⟩ <;> rfl

theorem Follows.encodes {opcode : UInt8} {family : Family} {instruction : Instruction}
    {bytes : List UInt8} (hfamily : Family.ofOpcode? opcode = some family)
    (h : Follows opcode family instruction bytes) : instruction.Encodes (opcode :: bytes) := by
  cases family with
  | registerMove =>
    obtain ⟨field, operand, hfield, hoperand, rfl⟩ := h
    have hopcode := eq_of_registerMove opcode hfamily
    cases hdirection : Opcode.direction opcode with
    | false =>
      have h := Encodes.movFrom hfield hoperand
      rw [hdirection, if_neg Bool.false_ne_true] at hopcode
      rw [← hopcode] at h
      exact h
    | true =>
      have h := Encodes.movTo hfield hoperand
      rw [hdirection, if_pos rfl] at hopcode
      rw [← hopcode] at h
      exact h
  | immediateMove =>
    obtain ⟨value, hfits, rfl, rfl⟩ := h
    have h := Encodes.movImmediate (Byte.and_seven_lt opcode) hfits
    rw [← eq_of_immediateMove opcode hfamily] at h
    exact h
  | immediateGroup =>
    obtain ⟨operand, immediate, first, second, rfl, ⟨hoperand, h, rfl⟩ | ⟨hoperand, h, rfl⟩⟩ := h
    · exact .addImmediate (width_of_addend h ▸ hoperand) h
    · exact .sub (width_of_subtrahend h ▸ hoperand) h
  | registerAdd =>
    obtain ⟨field, operand, hfield, hoperand, rfl⟩ := h
    have h := Encodes.add (Opcode.direction opcode) hfield hoperand
    rw [← eq_of_registerAdd opcode hfamily] at h
    exact h

theorem Encodes.follows {instruction : Instruction} {bytes : List UInt8}
    (h : instruction.Encodes bytes) : ∃ opcode rest, bytes = opcode :: rest ∧
      ∃ family, Family.ofOpcode? opcode = some family ∧ Follows opcode family instruction rest := by
  cases h with
  | @movFrom code width operand bytes hcode h =>
    refine ⟨_, _, rfl, .registerMove, ?_, code, operand, hcode, ?_⟩
    · cases width <;> decide
    · cases width <;> exact ⟨h, rfl⟩
  | @movTo code width operand bytes hcode h =>
    refine ⟨_, _, rfl, .registerMove, ?_, code, operand, hcode, ?_⟩
    · cases width <;> decide
    · cases width <;> exact ⟨h, rfl⟩
  | @movImmediate code width value hcode h =>
    have hfields : ∀ code : UInt8, code < 8 → ∀ width : Width,
        Family.ofOpcode? (0xB0 + 8 * width.bit + code) = some .immediateMove ∧
        Opcode.immediateWidth (0xB0 + 8 * width.bit + code) = width ∧
        (0xB0 + 8 * width.bit + code) &&& 7 = code := by
      intro code hcode width
      revert code
      cases width <;> decide +kernel
    obtain ⟨hfamily, hwidth, hregister⟩ := hfields code hcode width
    refine ⟨_, _, rfl, .immediateMove, hfamily, value, ?_⟩
    rw [hwidth, hregister]
    exact ⟨h, rfl, rfl⟩
  | @add code width operand bytes direction hcode h =>
    refine ⟨_, _, rfl, .registerAdd, ?_, code, operand, hcode, ?_⟩
    · cases direction <;> cases width <;> decide
    · cases direction <;> cases width <;> exact ⟨h, rfl⟩
  | @addImmediate opcode operand immediate first second h h' =>
    refine ⟨_, _, rfl, .immediateGroup, ?_, operand, immediate, first, second, rfl,
      .inl ⟨?_, h', rfl⟩⟩
    · rcases h' with ⟨rfl | rfl, -⟩ | - | - <;> decide
    · rwa [width_of_addend h']
  | @sub opcode operand immediate first second h h' =>
    refine ⟨_, _, rfl, .immediateGroup, ?_, operand, immediate, first, second, rfl,
      .inr ⟨?_, h', rfl⟩⟩
    · rcases h' with ⟨rfl | rfl, -⟩ | ⟨rfl | rfl, -⟩ <;> decide
    · rwa [width_of_subtrahend h']

/-- Reading accepts exactly the format. -/
theorem accepts_read : Accepts read Encodes := by
  refine (accepts_byte_bind accepts_readOpcode).congr fun instruction bytes => ⟨?_, ?_⟩
  · intro hform
    obtain ⟨opcode, rest, ⟨family, hfamily, h⟩, rfl⟩ := hform
    exact h.encodes hfamily
  · intro h
    obtain ⟨opcode, rest, rfl, hfollows⟩ := h.follows
    exact ⟨opcode, rest, hfollows, rfl⟩

/-- Reading inverts writing over the whole format: it succeeds with an instruction exactly where the
next bytes are one of the byte strings of the instruction, and it takes those bytes. -/
theorem read_eq_ok_iff_encodes (reader later : Reader) (instruction : Instruction) :
    read reader = .ok instruction later ↔ ∃ bytes, instruction.Encodes bytes ∧
      reader.rest = bytes ++ later.rest ∧ later.position = reader.position + bytes.length :=
  accepts_read reader later instruction

end Instruction

end Disasm8086
