import Disasm8086.Proofs.Reading

/-!
# Well-typed instructions

The instructions that bytes can be read as, described without the bytes. One operand is a register
or an immediate and gives the width; the other one is memory or has this width too. Reading gives
no other instruction, and it gives each of these from six bytes or less.
-/
namespace Disasm8086

/-- Memory, or a register of the width. Codes and `rm` fields have three bits. -/
inductive Operand.Addressable (width : Width) : Operand → Prop where
  | register {code : UInt8} (hcode : code < 8) : Addressable width (.reg ⟨code, width⟩)
  | direct (address : UInt16) : Addressable width (.mem (.direct address))
  | based {rm : UInt8} (hrm : rm < 8) (displacement : Int16) :
    Addressable width (.mem (.based rm displacement))

/-- The value has no bits above the width. -/
def Immediate.WellFormed (immediate : Immediate) : Prop :=
  immediate.width.Fits immediate.value

/-- The width that an operand has of its own. -/
def Operand.width? : Operand → Option Width
  | .reg register => some register.width
  | .mem _ => none
  | .imm immediate => some immediate.width

/-- Two operands have one width between them: they are not both memory, and no two widths are in
conflict. -/
def Operand.HaveOneWidth (first second : Operand) : Prop :=
  ∃ width, (first.width? = some width ∨ second.width? = some width) ∧
    (∀ own ∈ first.width?, own = width) ∧ ∀ own ∈ second.width?, own = width

namespace Instruction

inductive WellTyped : Instruction → Prop where
  | movFrom {code : UInt8} {width : Width} {dst : Operand} (hcode : code < 8)
    (h : dst.Addressable width) : WellTyped (.mov dst (.reg ⟨code, width⟩))
  | movTo {code : UInt8} {width : Width} {src : Operand} (hcode : code < 8)
    (h : src.Addressable width) : WellTyped (.mov (.reg ⟨code, width⟩) src)
  | movImmediate {code : UInt8} {width : Width} {value : UInt16} (hcode : code < 8)
    (h : width.Fits value) : WellTyped (.movImmediate ⟨code, width⟩ value width)
  | add {code : UInt8} {width : Width} {a : Operand} (direction : Bool) (hcode : code < 8)
    (h : a.Addressable width) : WellTyped (.add a (.reg ⟨code, width⟩) direction)
  | addImmediate {a : Operand} {immediate : Immediate} (h : a.Addressable immediate.width)
    (h' : immediate.WellFormed) : WellTyped (.add a (.imm immediate) false)
  | sub {dst : Operand} {immediate : Immediate} (h : dst.Addressable immediate.width)
    (h' : immediate.WellFormed) : WellTyped (.sub dst immediate)

end Instruction

namespace Operand

variable {width : Width} {operand : Operand}

theorem Addressable.exists_encodes (h : operand.Addressable width) (field : UInt8) :
    ∃ bytes, operand.Encodes field width bytes := by
  cases h with
  | register hcode => exact ⟨_, .mk hcode (.register rfl)⟩
  | direct address => exact ⟨_, .mk (by decide) (.direct rfl rfl address)⟩
  -- A word holds every displacement, also the zero of a base that cannot stand bare.
  | based hrm displacement => exact ⟨_, .mk hrm (.long rfl displacement)⟩

theorem Completes.addressable {mode rm : UInt8} {bytes : List UInt8}
    (h : operand.Completes width mode rm bytes) (hrm : rm < 8) : operand.Addressable width := by
  cases h with
  | register _ => exact .register hrm
  | direct _ _ address => exact .direct address
  | bare _ _ => exact .based hrm 0
  | short _ _ => exact .based hrm _
  | long _ displacement => exact .based hrm displacement

theorem Encodes.addressable {field : UInt8} {bytes : List UInt8}
    (h : operand.Encodes field width bytes) : operand.Addressable width := by
  obtain ⟨hrm, h⟩ := h
  exact h.addressable hrm

theorem addressable_of_read {mode rm : UInt8} {reader later : Reader}
    (hread : Operand.read mode rm width reader = .ok operand later) :
    operand.Addressable width := by
  obtain ⟨bytes, hcompletes, -⟩ := (accepts_read mode rm width reader later operand).mp hread
  exact hcompletes.addressable (Byte.and_seven_lt rm)

theorem Addressable.width?_eq (h : operand.Addressable width) :
    ∀ own ∈ operand.width?, own = width := by
  cases h <;> simp [width?]

/-- An addressable operand goes with one that has the width of its own. -/
theorem Addressable.haveOneWidth (h : operand.Addressable width) {other : Operand}
    (hother : other.width? = some width) :
    HaveOneWidth operand other ∧ HaveOneWidth other operand := by
  have hown : ∀ own ∈ other.width?, own = width := by simp [hother]
  exact ⟨⟨width, .inr hother, h.width?_eq, hown⟩, ⟨width, .inl hother, hown, h.width?_eq⟩⟩

end Operand

namespace Immediate

variable {immediate : Immediate}

theorem WellFormed.exists_addend (h : immediate.WellFormed) :
    ∃ opcode bytes, immediate.Addend opcode bytes := by
  obtain ⟨value, width⟩ := immediate
  cases width with
  | byte => exact ⟨0x80, _, .byte (.inl rfl) h⟩
  | word => exact ⟨0x81, _, .word value⟩

theorem WellFormed.exists_subtrahend (h : immediate.WellFormed) :
    ∃ opcode bytes, immediate.Subtrahend opcode bytes := by
  obtain ⟨value, width⟩ := immediate
  cases width with
  | byte => exact ⟨0x80, _, .byte (.inl rfl) h⟩
  | word => exact ⟨0x81, _, .word (.inl rfl) value⟩

theorem Addend.wellFormed {opcode : UInt8} {bytes : List UInt8}
    (h : immediate.Addend opcode bytes) : immediate.WellFormed := by
  cases h with
  | byte _ h => exact h
  | word value => exact trivial
  | short _ => exact trivial

theorem Subtrahend.wellFormed {opcode : UInt8} {bytes : List UInt8}
    (h : immediate.Subtrahend opcode bytes) : immediate.WellFormed := by
  cases h with
  | byte _ h => exact h
  | word _ value => exact trivial

end Immediate

namespace Instruction

variable {instruction : Instruction}

theorem WellTyped.exists_encodes (h : instruction.WellTyped) :
    ∃ bytes, instruction.Encodes bytes := by
  cases h with
  | movFrom hcode h =>
    obtain ⟨bytes, hoperand⟩ := h.exists_encodes _
    exact ⟨_, .movFrom hcode hoperand⟩
  | movTo hcode h =>
    obtain ⟨bytes, hoperand⟩ := h.exists_encodes _
    exact ⟨_, .movTo hcode hoperand⟩
  | movImmediate hcode h => exact ⟨_, .movImmediate hcode h⟩
  | add direction hcode h =>
    obtain ⟨bytes, hoperand⟩ := h.exists_encodes _
    exact ⟨_, .add direction hcode hoperand⟩
  | addImmediate h h' =>
    obtain ⟨first, hoperand⟩ := h.exists_encodes 0
    obtain ⟨opcode, second, himmediate⟩ := h'.exists_addend
    exact ⟨_, .addImmediate hoperand himmediate⟩
  | sub h h' =>
    obtain ⟨first, hoperand⟩ := h.exists_encodes 5
    obtain ⟨opcode, second, himmediate⟩ := h'.exists_subtrahend
    exact ⟨_, .sub hoperand himmediate⟩

theorem Encodes.wellTyped {bytes : List UInt8} (h : instruction.Encodes bytes) :
    instruction.WellTyped := by
  cases h with
  | movFrom hcode h => exact .movFrom hcode h.addressable
  | movTo hcode h => exact .movTo hcode h.addressable
  | movImmediate hcode h => exact .movImmediate hcode h
  | add direction hcode h => exact .add direction hcode h.addressable
  | addImmediate h h' => exact .addImmediate h.addressable h'.wellFormed
  | sub h h' => exact .sub h.addressable h'.wellFormed

theorem wellTyped_of_read {reader later : Reader} (hread : read reader = .ok instruction later) :
    instruction.WellTyped := by
  obtain ⟨bytes, hencodes, -⟩ := (accepts_read reader later instruction).mp hread
  exact hencodes.wellTyped

theorem WellTyped.haveOneWidth (h : instruction.WellTyped) :
    instruction.operands.1.HaveOneWidth instruction.operands.2 := by
  cases h with
  | movFrom hcode h => exact (h.haveOneWidth rfl).1
  | movTo hcode h => exact (h.haveOneWidth rfl).2
  | @movImmediate code width value hcode h =>
    exact ((Operand.Addressable.register hcode).haveOneWidth rfl).1
  | add direction hcode h =>
    cases direction with
    | false => exact (h.haveOneWidth rfl).1
    | true => exact (h.haveOneWidth rfl).2
  | addImmediate h h' => exact (h.haveOneWidth rfl).1
  | sub h h' => exact (h.haveOneWidth rfl).1

theorem WellTyped.ne_cmp (h : instruction.WellTyped) (dst : Operand) (imm : Immediate) :
    instruction ≠ .cmp dst imm := by
  rintro rfl
  cases h

theorem wellTyped_iff_encodings_ne_nil : instruction.WellTyped ↔ instruction.encodings ≠ [] := by
  constructor
  · intro h
    obtain ⟨bytes, hencodes⟩ := h.exists_encodes
    exact List.ne_nil_of_mem (mem_encodings_iff.mpr hencodes)
  · intro h
    obtain ⟨bytes, hmem⟩ := List.exists_mem_of_ne_nil _ h
    exact (mem_encodings_iff.mp hmem).wellTyped

/-- An instruction is well-typed if there are bytes to write it as. -/
instance : Decidable instruction.WellTyped :=
  decidable_of_iff _ wellTyped_iff_encodings_ne_nil.symm

/-- Reading produces exactly the well-typed instructions. Wherever it succeeds, it does with one of
them; each of them is what some buffer of six bytes or less is read as, to its last byte. None of
them is a comparison, and the operands that it shows have one width between them. -/
theorem wellTyped_iff_exists_read (instruction : Instruction) :
    (instruction.WellTyped ↔ ∃ reader later, read reader = .ok instruction later) ∧
    (instruction.WellTyped ↔ ∃ bytes, bytes.length ≤ 6 ∧
      read (.ofBytes bytes) = .ok instruction ⟨bytes.length, []⟩) ∧
    (instruction.WellTyped → (∀ dst imm, instruction ≠ .cmp dst imm) ∧
      instruction.operands.1.HaveOneWidth instruction.operands.2) := by
  have hcomplete : instruction.WellTyped → ∃ bytes, bytes.length ≤ 6 ∧
      read (.ofBytes bytes) = .ok instruction ⟨bytes.length, []⟩ := by
    intro h
    obtain ⟨bytes, hencodes⟩ := h.exists_encodes
    have hread := accepts_read.run hencodes 0 []
    rw [List.append_nil, Nat.zero_add] at hread
    exact ⟨bytes, hencodes.length_bounds.2, hread⟩
  refine ⟨⟨fun h => ?_, fun ⟨_, _, hread⟩ => wellTyped_of_read hread⟩,
    ⟨hcomplete, fun ⟨_, _, hread⟩ => wellTyped_of_read hread⟩, fun h => ⟨h.ne_cmp, h.haveOneWidth⟩⟩
  obtain ⟨bytes, -, hread⟩ := hcomplete h
  exact ⟨_, _, hread⟩

/-- A base that cannot stand bare, at displacement zero. -/
theorem wellTyped_iff_exists_read_bp :
    (∃ bytes : List UInt8, bytes.length ≤ 6 ∧
      read (.ofBytes bytes) = .ok (.sub (.mem (.based 6 0)) ⟨0xFFFF, .word⟩) ⟨bytes.length, []⟩) ∧
    Operand.HaveOneWidth (.mem (.based 6 0)) (.imm ⟨0xFFFF, .word⟩) := by
  obtain ⟨-, hshort, hshown⟩ := wellTyped_iff_exists_read (.sub (.mem (.based 6 0)) ⟨0xFFFF, .word⟩)
  have h : WellTyped (.sub (.mem (.based 6 0)) ⟨0xFFFF, .word⟩) := by decide
  exact ⟨hshort.mp h, (hshown h).2⟩

example : ¬ WellTyped (.mov (.mem (.based 6 0)) (.mem (.direct 2))) ∧
    ¬ WellTyped (.sub (.reg ⟨1, .byte⟩) ⟨5, .word⟩) := by
  decide

end Instruction

end Disasm8086
