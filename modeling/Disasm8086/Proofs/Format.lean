import Disasm8086.Proofs.Bytes

/-!
# The instruction format

The format as a relation between instructions and byte strings, written out without the reader:
which addressing bytes, displacements and immediates an instruction may have. The list of an
instruction's byte strings holds exactly those that the relation gives it, so the relation is
decidable.
-/
namespace Disasm8086

/-- Behind an addressing byte with these fields, the bytes complete the operand. -/
inductive Operand.Completes (width : Width) (mode rm : UInt8) : Operand → List UInt8 → Prop where
  | register (hmode : mode = 0b11) : Completes width mode rm (.reg ⟨rm, width⟩) []
  | direct (hmode : mode = 0b00) (hrm : rm = 0b110) (address : UInt16) :
    Completes width mode rm (.mem (.direct address)) (Word.toBytes address)
  | bare (hmode : mode = 0b00) (hrm : rm ≠ 0b110) :
    Completes width mode rm (.mem (.based rm 0)) []
  | short (hmode : mode = 0b01) {displacement : Int16}
    (h : -128 ≤ displacement ∧ displacement ≤ 127) :
    Completes width mode rm (.mem (.based rm displacement)) [displacement.toUInt16.toUInt8]
  | long (hmode : mode = 0b10) (displacement : Int16) :
    Completes width mode rm (.mem (.based rm displacement))
      (Word.toBytes displacement.toUInt16)

/-- An addressing byte with this `reg` field, and what completes the operand. -/
inductive Operand.Encodes (field : UInt8) (width : Width) (operand : Operand) :
    List UInt8 → Prop where
  | mk {mode rm : UInt8} {rest : List UInt8} (hrm : rm < 8)
    (h : operand.Completes width mode rm rest) :
    Encodes field width operand (ModRM.toByte ⟨mode, field, rm⟩ :: rest)

/-- The immediate of an addition behind each opcode of the group: a sign-extended byte is a word
with nine equal bits in front. -/
inductive Immediate.Addend : UInt8 → Immediate → List UInt8 → Prop where
  | byte {opcode : UInt8} (hopcode : opcode = 0x80 ∨ opcode = 0x82) {value : UInt16}
    (h : value < 0x100) : Addend opcode ⟨value, .byte⟩ [value.toUInt8]
  | word (value : UInt16) : Addend 0x81 ⟨value, .word⟩ (Word.toBytes value)
  | short {value : UInt16} (h : value < 0x80 ∨ 0xFF80 ≤ value) :
    Addend 0x83 ⟨value, .word⟩ [value.toUInt8]

/-- The immediate of a subtraction has the full width behind every opcode. -/
inductive Immediate.Subtrahend : UInt8 → Immediate → List UInt8 → Prop where
  | byte {opcode : UInt8} (hopcode : opcode = 0x80 ∨ opcode = 0x82) {value : UInt16}
    (h : value < 0x100) : Subtrahend opcode ⟨value, .byte⟩ [value.toUInt8]
  | word {opcode : UInt8} (hopcode : opcode = 0x81 ∨ opcode = 0x83) (value : UInt16) :
    Subtrahend opcode ⟨value, .word⟩ (Word.toBytes value)

/-- The byte strings that an instruction may be written as. -/
inductive Instruction.Encodes : Instruction → List UInt8 → Prop where
  | movFrom {code : UInt8} {width : Width} {operand : Operand} {bytes : List UInt8}
    (hcode : code < 8) (h : operand.Encodes code width bytes) :
    Encodes (.mov operand (.reg ⟨code, width⟩)) ((0x88 + width.bit) :: bytes)
  | movTo {code : UInt8} {width : Width} {operand : Operand} {bytes : List UInt8}
    (hcode : code < 8) (h : operand.Encodes code width bytes) :
    Encodes (.mov (.reg ⟨code, width⟩) operand) ((0x8A + width.bit) :: bytes)
  | movImmediate {code : UInt8} {width : Width} {value : UInt16}
    (hcode : code < 8) (h : width.Fits value) :
    Encodes (.movImmediate ⟨code, width⟩ value width)
      ((0xB0 + 8 * width.bit + code) :: width.toBytes value)
  | add {code : UInt8} {width : Width} {operand : Operand} {bytes : List UInt8}
    (direction : Bool) (hcode : code < 8) (h : operand.Encodes code width bytes) :
    Encodes (.add operand (.reg ⟨code, width⟩) direction)
      (((if direction then 2 else 0) + width.bit) :: bytes)
  | addImmediate {opcode : UInt8} {operand : Operand} {immediate : Immediate}
    {bytes bytes' : List UInt8} (h : operand.Encodes 0 immediate.width bytes)
    (h' : immediate.Addend opcode bytes') :
    Encodes (.add operand (.imm immediate) false) (opcode :: (bytes ++ bytes'))
  | sub {opcode : UInt8} {operand : Operand} {immediate : Immediate}
    {bytes bytes' : List UInt8} (h : operand.Encodes 5 immediate.width bytes)
    (h' : immediate.Subtrahend opcode bytes') :
    Encodes (.sub operand immediate) (opcode :: (bytes ++ bytes'))

theorem Operand.Completes.mode_lt {width : Width} {mode rm : UInt8} {operand : Operand}
    {bytes : List UInt8} (h : operand.Completes width mode rm bytes) : mode < 4 := by
  rcases h with hmode | hmode | hmode | hmode | hmode <;>
    rw [hmode] <;>
    decide

theorem Operand.Encodes.length_bounds {field : UInt8} {width : Width} {operand : Operand}
    {bytes : List UInt8} (h : operand.Encodes field width bytes) :
    1 ≤ bytes.length ∧ bytes.length ≤ 3 := by
  obtain ⟨hrm, h⟩ := h
  cases h <;> simp [Word.toBytes]

theorem Immediate.Addend.length_bounds {opcode : UInt8} {immediate : Immediate}
    {bytes : List UInt8} (h : immediate.Addend opcode bytes) :
    1 ≤ bytes.length ∧ bytes.length ≤ 2 := by
  cases h <;> simp [Word.toBytes]

theorem Immediate.Subtrahend.length_bounds {opcode : UInt8} {immediate : Immediate}
    {bytes : List UInt8} (h : immediate.Subtrahend opcode bytes) :
    1 ≤ bytes.length ∧ bytes.length ≤ 2 := by
  cases h <;> simp [Word.toBytes]

/-- The enumeration of an operand's addressing bytes is the format's. -/
theorem Operand.mem_encodings_iff {field : UInt8} {width : Width} {operand : Operand}
    {bytes : List UInt8} :
    bytes ∈ operand.encodings field width ↔ operand.Encodes field width bytes := by
  constructor
  · intro h
    match operand with
    | .reg register =>
      simp only [encodings, List.mem_ite_nil_right, List.mem_singleton] at h
      obtain ⟨⟨hcode, rfl⟩, rfl⟩ := h
      exact .mk hcode (.register rfl)
    | .mem (.direct address) =>
      simp only [encodings, List.mem_singleton] at h
      rw [h]
      exact .mk (by decide) (.direct rfl rfl address)
    | .mem (.based rm displacement) =>
      simp only [encodings, Address.encodingsBased, List.mem_ite_nil_right, List.mem_append,
        List.mem_singleton] at h
      obtain ⟨hrm, (⟨⟨rfl, hbare⟩, rfl⟩ | ⟨hshort, rfl⟩) | rfl⟩ := h
      · exact .mk hrm (.bare rfl hbare)
      · exact .mk hrm (.short rfl hshort)
      · exact .mk hrm (.long rfl displacement)
    | .imm _ => simp [encodings] at h
  · intro hform
    obtain ⟨hrm, rfl | ⟨rfl, rfl, address⟩ | ⟨rfl, hbare⟩ | ⟨rfl, hshort⟩ | ⟨rfl, displacement⟩⟩ :=
      hform
    · simp [encodings, hrm]
    · simp [encodings]
    · simp [encodings, Address.encodingsBased, hrm, hbare]
    · simp [encodings, Address.encodingsBased, hrm, hshort]
    · simp [encodings, Address.encodingsBased, hrm]

namespace Instruction

theorem mem_encodingsRegister_iff {opcode : UInt8} {register : Register} {operand : Operand}
    {bytes : List UInt8} : bytes ∈ encodingsRegister opcode register operand ↔
      ∃ rest, register.code < 8 ∧ operand.Encodes register.code register.width rest ∧
        bytes = (opcode + register.width.bit) :: rest := by
  simp only [encodingsRegister, List.mem_ite_nil_right, List.mem_map, Operand.mem_encodings_iff,
    eq_comm (a := bytes), exists_and_left]

theorem mem_encodingsGroup_iff {opcode field : UInt8} {operand : Operand} {width : Width}
    {immediate bytes : List UInt8} :
    bytes ∈ encodingsGroup opcode field operand width immediate ↔
      ∃ addressing, operand.Encodes field width addressing ∧
        bytes = opcode :: (addressing ++ immediate) := by
  simp only [encodingsGroup, List.mem_map, Operand.mem_encodings_iff, eq_comm (a := bytes),
    List.cons_append]

theorem mem_encodingsAddend_iff {operand : Operand} {immediate : Immediate} {bytes : List UInt8} :
    bytes ∈ encodingsAddend operand immediate ↔
      ∃ opcode first second, operand.Encodes 0 immediate.width first ∧
        immediate.Addend opcode second ∧ bytes = opcode :: (first ++ second) := by
  constructor
  · intro h
    match immediate with
    | ⟨value, .byte⟩ =>
      simp only [encodingsAddend, List.mem_ite_nil_right, List.mem_flatMap,
        mem_encodingsGroup_iff, Width.truncate_eq_self_iff] at h
      obtain ⟨hfits, opcode, hopcode, first, hfirst, rfl⟩ := h
      exact ⟨opcode, first, _, hfirst, .byte (by simpa using hopcode) hfits, rfl⟩
    | ⟨value, .word⟩ =>
      simp only [encodingsAddend, List.mem_append, List.mem_ite_nil_right,
        mem_encodingsGroup_iff, Word.signExtend_eq_iff] at h
      obtain ⟨first, hfirst, rfl⟩ | ⟨hshort, first, hfirst, rfl⟩ := h
      · exact ⟨_, first, _, hfirst, .word value, rfl⟩
      · exact ⟨_, first, _, hfirst, .short hshort, rfl⟩
  · intro hform
    obtain ⟨opcode, first, _, hfirst, ⟨hopcode, hfits⟩ | ⟨value⟩ | hshort, rfl⟩ := hform
    · simp only [encodingsAddend, List.mem_ite_nil_right, List.mem_flatMap,
        mem_encodingsGroup_iff, Width.truncate_eq_self_iff]
      exact ⟨hfits, opcode, by simpa using hopcode, first, hfirst, rfl⟩
    · simp only [encodingsAddend, List.mem_append, mem_encodingsGroup_iff]
      exact .inl ⟨first, hfirst, rfl⟩
    · simp only [encodingsAddend, List.mem_append, List.mem_ite_nil_right,
        mem_encodingsGroup_iff, Word.signExtend_eq_iff]
      exact .inr ⟨hshort, first, hfirst, rfl⟩

theorem mem_encodingsSubtrahend_iff {operand : Operand} {immediate : Immediate}
    {bytes : List UInt8} : bytes ∈ encodingsSubtrahend operand immediate ↔
      ∃ opcode first second, operand.Encodes 5 immediate.width first ∧
        immediate.Subtrahend opcode second ∧ bytes = opcode :: (first ++ second) := by
  constructor
  · intro h
    match immediate with
    | ⟨value, .byte⟩ =>
      simp only [encodingsSubtrahend, List.mem_ite_nil_right, List.mem_flatMap,
        mem_encodingsGroup_iff, Width.truncate_eq_self_iff] at h
      obtain ⟨hfits, opcode, hopcode, first, hfirst, rfl⟩ := h
      exact ⟨opcode, first, _, hfirst, .byte (by simpa using hopcode) hfits, rfl⟩
    | ⟨value, .word⟩ =>
      simp only [encodingsSubtrahend, List.mem_flatMap, mem_encodingsGroup_iff] at h
      obtain ⟨opcode, hopcode, first, hfirst, rfl⟩ := h
      exact ⟨opcode, first, _, hfirst, .word (by simpa using hopcode) value, rfl⟩
  · intro hform
    obtain ⟨opcode, first, _, hfirst, ⟨hopcode, hfits⟩ | ⟨hopcode, value⟩, rfl⟩ := hform
    · simp only [encodingsSubtrahend, List.mem_ite_nil_right, List.mem_flatMap,
        mem_encodingsGroup_iff, Width.truncate_eq_self_iff]
      exact ⟨hfits, opcode, by simpa using hopcode, first, hfirst, rfl⟩
    · simp only [encodingsSubtrahend, List.mem_flatMap, mem_encodingsGroup_iff]
      exact ⟨opcode, by simpa using hopcode, first, hfirst, rfl⟩

/-- The enumeration of an instruction's byte strings is the format's. -/
theorem mem_encodings_iff {instruction : Instruction} {bytes : List UInt8} :
    bytes ∈ instruction.encodings ↔ instruction.Encodes bytes := by
  constructor
  · intro h
    match instruction with
    | .mov dst src =>
      rcases List.mem_append.mp h with h | h
      · cases src with
        | reg register =>
          obtain ⟨rest, hcode, hrest, rfl⟩ := mem_encodingsRegister_iff.mp h
          exact .movFrom hcode hrest
        | mem _ => cases h
        | imm _ => cases h
      · cases dst with
        | reg register =>
          obtain ⟨rest, hcode, hrest, rfl⟩ := mem_encodingsRegister_iff.mp h
          exact .movTo hcode hrest
        | mem _ => cases h
        | imm _ => cases h
    | .movImmediate ⟨code, width'⟩ value width =>
      simp only [encodings, List.mem_ite_nil_right, List.mem_singleton,
        Width.truncate_eq_self_iff] at h
      obtain ⟨⟨hcode, rfl, hfits⟩, rfl⟩ := h
      exact .movImmediate hcode hfits
    | .add a (.reg register) direction =>
      obtain ⟨rest, hcode, hrest, rfl⟩ := mem_encodingsRegister_iff.mp h
      exact .add direction hcode hrest
    | .add a (.imm immediate) false =>
      obtain ⟨opcode, first, second, hfirst, hsecond, rfl⟩ := mem_encodingsAddend_iff.mp h
      exact .addImmediate hfirst hsecond
    | .sub dst immediate =>
      obtain ⟨opcode, first, second, hfirst, hsecond, rfl⟩ := mem_encodingsSubtrahend_iff.mp h
      exact .sub hfirst hsecond
  · intro h
    cases h with
    | movFrom hcode h =>
      exact List.mem_append_left _ (mem_encodingsRegister_iff.mpr ⟨_, hcode, h, rfl⟩)
    | movTo hcode h =>
      exact List.mem_append_right _ (mem_encodingsRegister_iff.mpr ⟨_, hcode, h, rfl⟩)
    | movImmediate hcode hfits =>
      rw [encodings, List.mem_ite_nil_right, List.mem_singleton, Width.truncate_eq_self_iff]
      exact ⟨⟨hcode, rfl, hfits⟩, rfl⟩
    | add direction hcode h => exact mem_encodingsRegister_iff.mpr ⟨_, hcode, h, rfl⟩
    | addImmediate h h' => exact mem_encodingsAddend_iff.mpr ⟨_, _, _, h, h', rfl⟩
    | sub h h' => exact mem_encodingsSubtrahend_iff.mpr ⟨_, _, _, h, h', rfl⟩

/-- An instruction has an opcode and at least one byte more, and at most six bytes. -/
theorem Encodes.length_bounds {instruction : Instruction} {bytes : List UInt8}
    (h : instruction.Encodes bytes) : 2 ≤ bytes.length ∧ bytes.length ≤ 6 := by
  cases h with
  | movFrom hcode h =>
    have hlength := h.length_bounds
    rw [List.length_cons]
    omega
  | movTo hcode h =>
    have hlength := h.length_bounds
    rw [List.length_cons]
    omega
  | @movImmediate code width value hcode hfits =>
    have hlength : (width.toBytes value).length = 1 ∨ (width.toBytes value).length = 2 := by
      cases width with
      | byte => exact .inl rfl
      | word => exact .inr rfl
    rw [List.length_cons]
    omega
  | add direction hcode h =>
    have hlength := h.length_bounds
    rw [List.length_cons]
    omega
  | addImmediate h h' =>
    have hlength := h.length_bounds
    have hlength' := h'.length_bounds
    rw [List.length_cons, List.length_append]
    omega
  | sub h h' =>
    have hlength := h.length_bounds
    have hlength' := h'.length_bounds
    rw [List.length_cons, List.length_append]
    omega

end Instruction

/-- Whether a byte string is one of an instruction's is decided by enumeration. -/
instance (instruction : Instruction) (bytes : List UInt8) :
    Decidable (instruction.Encodes bytes) :=
  decidable_of_iff (bytes ∈ instruction.encodings) Instruction.mem_encodings_iff

example : (Instruction.mov (.reg ⟨1, .word⟩) (.mem (.based 6 (-2)))).Encodes
    [0x8B, 0x4E, 0xFE] := by
  decide

end Disasm8086
