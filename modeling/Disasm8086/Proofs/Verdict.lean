import Disasm8086.Proofs.Reading
import Disasm8086.Proofs.Takes

/-!
# How reading an instruction ends

The opcode, the addressing byte and the number of bytes that are left settle how reading an
instruction ends: whether it succeeds or which fault it meets, and how many bytes it takes. The
values of the other bytes are no matter. What the reads of an instruction took in front of a fault
stays taken, and bytes that run out are found before an operation that there is not, as far as they
belong to the operand, and after it, as far as they belong to the immediate.
-/
namespace Disasm8086

open Read

/-- The end of reading an instruction, with the number of bytes that it takes. -/
inductive Verdict where
  | success (length : Nat)
  | endOfInput (taken : Nat)
  | unknownOpcode (opcode : UInt8)
  | groupOperation (reg : UInt8) (taken : Nat)
  deriving DecidableEq, Repr

namespace Verdict

/-- The number of displacement bytes behind an addressing byte, from its mode and `rm` field. -/
def displacementLength (modrm : UInt8) : Nat :=
  match modrm.toNat / 64 with
  | 0 => if modrm.toNat % 8 = 6 then 2 else 0
  | 1 => 1
  | 2 => 2
  | _ => 0

/-- The number of immediate bytes. Opcode `83` has one in an addition and two in a subtraction. -/
def immediateLength (opcode reg : UInt8) : Nat :=
  if opcode = 0x80 ∨ opcode = 0x82 then 1
  else if opcode = 0x81 then 2
  else if opcode = 0x83 then if reg = 0 then 1 else 2
  else 0

/-- The immediate group has an addition and a subtraction. -/
def LacksOperation (opcode reg : UInt8) : Prop :=
  (0x80 ≤ opcode ∧ opcode ≤ 0x83) ∧ reg ≠ 0 ∧ reg ≠ 5

instance (opcode reg : UInt8) : Decidable (LacksOperation opcode reg) :=
  inferInstanceAs (Decidable ((_ ∧ _) ∧ _ ∧ _))

/-- For an opcode that moves an immediate to a register. -/
def immediateMove (left : Nat) (opcode : UInt8) : Verdict :=
  let length := if opcode < 0xB8 then 2 else 3
  if left < length then .endOfInput 1 else .success length

/-- For an opcode with an addressing byte behind it. -/
def addressed (left : Nat) (opcode modrm : UInt8) : Verdict :=
  let reg := modrm / 8 % 8
  let operand := 2 + displacementLength modrm
  let length := operand + immediateLength opcode reg
  if left = 1 then .endOfInput 1
  else if left < operand then .endOfInput 2
  else if LacksOperation opcode reg then .groupOperation reg operand
  else if left < length then .endOfInput operand
  else .success length

/-- The verdict on `left` bytes of which the first is `opcode`, and the second, if there is one,
`modrm`. -/
def ofBytes (left : Nat) (opcode modrm : UInt8) : Verdict :=
  if left = 0 then .endOfInput 0
  else if 0xB0 ≤ opcode ∧ opcode ≤ 0xBF then immediateMove left opcode
  else if opcode ≤ 0x03 ∨ 0x80 ≤ opcode ∧ opcode ≤ 0x83 ∨ 0x88 ≤ opcode ∧ opcode ≤ 0x8B then
    addressed left opcode modrm
  else .unknownOpcode opcode

/-- Reading from `reader` ends as the verdict says, and leaves the reader behind the bytes taken. -/
def Holds (reader : Reader) (result : EStateM.Result Fault Reader Instruction) : Verdict → Prop
  | .success length => ∃ instruction, result = .ok instruction (reader.skip length)
  | .endOfInput taken =>
    result = .error (.endOfInput (reader.position + taken)) (reader.skip taken)
  | .unknownOpcode opcode => result = .error (.unknownOpcode opcode) (reader.skip 1)
  | .groupOperation reg taken => result = .error (.groupOperation reg) (reader.skip taken)

end Verdict

/-- The last read of an instruction, behind `taken` bytes. -/
theorem Read.Takes.holds {n : Nat} {read : Read Instruction} (h : Takes n read) (reader : Reader)
    {taken : Nat} (htaken : taken ≤ reader.rest.length) :
    Verdict.Holds reader (read (reader.skip taken))
      (if reader.rest.length < taken + n then .endOfInput taken else .success (taken + n)) := by
  obtain ⟨hall, hnone⟩ := h (reader.skip taken)
  rw [Reader.skip, List.length_drop] at hall hnone
  by_cases hn : reader.rest.length < taken + n
  · rw [if_pos hn]
    exact hnone (by omega)
  · rw [if_neg hn]
    obtain ⟨instruction, hread⟩ := hall (by omega)
    rw [← Reader.skip, Reader.skip_skip] at hread
    exact ⟨instruction, hread⟩

open Verdict

/-- The mode and the `rm` field of an addressing byte say how many bytes its operand takes. -/
theorem Verdict.displacementLength_eq : ∀ b : UInt8, (ModRM.ofByte b).mode ≤ 3 ∧
    displacementLength b = Operand.displacementSize (ModRM.ofByte b).mode (ModRM.ofByte b).rm := by
  decide +kernel

theorem Operand.takes_read_ofByte (b : UInt8) (width : Width) : Takes (displacementLength b)
    (Operand.read (ModRM.ofByte b).mode (ModRM.ofByte b).rm width) := by
  obtain ⟨hmode, hsize⟩ := displacementLength_eq b
  rw [hsize]
  exact takes_read hmode _ width

namespace Instruction

theorem takes_readAddend {opcode : UInt8}
    (h : Family.ofOpcode? opcode = some .immediateGroup) :
    Takes (immediateLength opcode 0) (readAddend opcode) := by
  rcases eq_of_immediateGroup opcode h with rfl | rfl | rfl | rfl
  · exact takes_byte.map _
  · exact takes_word.map _
  · exact takes_byte.map _
  · exact takes_byte.map _

theorem takes_readSubtrahend {opcode : UInt8}
    (h : Family.ofOpcode? opcode = some .immediateGroup) :
    Takes (immediateLength opcode 5) (readSubtrahend opcode) := by
  rcases eq_of_immediateGroup opcode h with rfl | rfl | rfl | rfl
  · exact (takes_number .byte).map _
  · exact (takes_number .word).map _
  · exact (takes_number .byte).map _
  · exact (takes_number .word).map _

theorem reg_ofByte (b : UInt8) : (ModRM.ofByte b).reg = b / 8 % 8 := by
  have hshift : b >>> 3 = b / 8 := by
    rw [← UInt8.toNat_inj, UInt8.toNat_shiftRight, UInt8.toNat_div]
    exact Nat.shiftRight_eq_div_pow b.toNat 3
  change b >>> 3 &&& 7 = _
  rw [Byte.and_seven, hshift]

theorem readModRM_of_lt (width : Width) (position : Nat) {b : UInt8} {rest : List UInt8}
    (h : rest.length < displacementLength b) : readModRM width ⟨position, b :: rest⟩ =
      .error (.endOfInput (position + 1)) ⟨position + 1, rest⟩ :=
  bind_of_error ((Operand.takes_read_ofByte b width ⟨position + 1, rest⟩).2 h) _

theorem readModRM_of_le (width : Width) (position : Nat) {b : UInt8} {rest : List UInt8}
    (h : displacementLength b ≤ rest.length) : ∃ operand,
      readModRM width ⟨position, b :: rest⟩ =
        .ok (b / 8 % 8, operand) (Reader.skip (displacementLength b) ⟨position + 1, rest⟩) := by
  obtain ⟨operand, hread⟩ := (Operand.takes_read_ofByte b width ⟨position + 1, rest⟩).1 h
  rw [← reg_ofByte]
  exact ⟨operand, bind_of_ok hread _⟩

/-- Behind the operand of an instruction comes its immediate, unless the instruction lacks an
operation. -/
def Finishes (opcode : UInt8) (next : UInt8 × Operand → Read Instruction) : Prop :=
  ∀ reg operand, if LacksOperation opcode reg then next (reg, operand) = throw (.groupOperation reg)
    else Takes (immediateLength opcode reg) (next (reg, operand))

/-- The verdict on an opcode with an addressing byte, from the reads that follow the opcode. -/
theorem addressed_holds {opcode : UInt8} {next : UInt8 × Operand → Read Instruction}
    (hnext : Finishes opcode next) (width : Width) (position : Nat) (rest : List UInt8) :
    (addressed (rest.length + 1) opcode (rest.getD 0 0)).Holds ⟨position, opcode :: rest⟩
      ((readModRM width >>= next) ⟨position + 1, rest⟩) := by
  cases rest with
  | nil => exact rfl
  | cons b rest =>
    rw [List.getD_cons_zero, List.length_cons, addressed, if_neg (by omega)]
    -- The cases are in the order of the reads, which is the order of the verdict.
    by_cases hoperand : rest.length < displacementLength b
    · rw [if_pos (by omega), bind_of_error (readModRM_of_lt width _ hoperand)]
      exact rfl
    rw [if_neg (by omega)]
    obtain ⟨operand, hread⟩ := readModRM_of_le width (position + 1) (Nat.le_of_not_lt hoperand)
    -- What is behind the operand is read by a reader that has taken opcode and operand.
    have hskip : Reader.skip (displacementLength b) ⟨position + 1 + 1, rest⟩ =
        Reader.skip (2 + displacementLength b) ⟨position, opcode :: b :: rest⟩ :=
      Reader.skip_skip 2 (displacementLength b) ⟨position, opcode :: b :: rest⟩
    have hfinish := hnext (b / 8 % 8) operand
    rw [bind_of_ok hread, hskip]
    by_cases hlacks : LacksOperation opcode (b / 8 % 8)
    · rw [if_pos hlacks] at hfinish ⊢
      rw [hfinish]
      exact rfl
    rw [if_neg hlacks] at hfinish ⊢
    exact hfinish.holds _ (by simp only [List.length_cons]; omega)

/-- Each family of opcodes has its verdict. -/
theorem ofBytes_eq (left : Nat) (opcode modrm : UInt8) :
    Verdict.ofBytes (left + 1) opcode modrm =
      match Family.ofOpcode? opcode with
      | none => .unknownOpcode opcode
      | some .immediateMove => immediateMove (left + 1) opcode
      | some _ => addressed (left + 1) opcode modrm := by
  have hranges : ∀ opcode : UInt8,
      (0xB0 ≤ opcode ∧ opcode ≤ 0xBF ↔ Family.ofOpcode? opcode = some .immediateMove) ∧
      (opcode ≤ 0x03 ∨ 0x80 ≤ opcode ∧ opcode ≤ 0x83 ∨ 0x88 ≤ opcode ∧ opcode ≤ 0x8B ↔
        Family.ofOpcode? opcode ≠ some .immediateMove ∧ Family.ofOpcode? opcode ≠ none) := by
    decide +kernel
  obtain ⟨hmove, haddressed⟩ := hranges opcode
  rw [Verdict.ofBytes, if_neg (Nat.succ_ne_zero left)]
  simp only [hmove, haddressed]
  cases hfamily : Family.ofOpcode? opcode with
  | none => rfl
  | some family => cases family <;> rfl

/-- The operation of the group that the `reg` field selects. -/
theorem finishes_group {opcode : UInt8} (h : Family.ofOpcode? opcode = some .immediateGroup) :
    Finishes opcode fun found => match GroupOperation.ofBits? found.1 with
      | some .add => do return .add found.2 (.imm (← readAddend opcode)) false
      | some .sub => do return .sub found.2 (← readSubtrahend opcode)
      | none => throw (.groupOperation found.1) := by
  have hgroup : 0x80 ≤ opcode ∧ opcode ≤ 0x83 := by
    rcases eq_of_immediateGroup opcode h with rfl | rfl | rfl | rfl <;> decide
  intro reg operand
  obtain ⟨hadd, hsub, hnone⟩ := field_of_ofBits? reg
  simp only
  cases hbits : GroupOperation.ofBits? reg with
  | none => rw [if_pos ⟨hgroup, hnone hbits⟩]
  | some operation =>
    cases operation with
    | add =>
      obtain rfl := hadd hbits
      rw [if_neg fun hlacks => hlacks.2.1 rfl]
      exact (takes_readAddend h).map _
    | sub =>
      obtain rfl := hsub hbits
      rw [if_neg fun hlacks => hlacks.2.2 rfl]
      exact (takes_readSubtrahend h).map _

/-- Outside the immediate group nothing is behind the operand. -/
theorem finishes_register {opcode : UInt8}
    (h : Family.ofOpcode? opcode = some .registerMove ∨ Family.ofOpcode? opcode = some .registerAdd)
    (f : UInt8 × Operand → Instruction) : Finishes opcode fun found => pure (f found) := by
  have hopcode : ∀ opcode : UInt8, Family.ofOpcode? opcode = some .registerMove ∨
      Family.ofOpcode? opcode = some .registerAdd → ¬ (0x80 ≤ opcode ∧ opcode ≤ 0x83) ∧
        ¬ (opcode = 0x80 ∨ opcode = 0x82) ∧ opcode ≠ 0x81 ∧ opcode ≠ 0x83 := by
    decide +kernel
  obtain ⟨hgroup, hbyte, hword, hshort⟩ := hopcode opcode h
  intro reg operand
  rw [if_neg fun hlacks => hgroup hlacks.1, immediateLength, if_neg hbyte, if_neg hword,
    if_neg hshort]
  exact takes_pure _

theorem immediateMove_length : ∀ opcode : UInt8, Family.ofOpcode? opcode = some .immediateMove →
    1 + (Opcode.immediateWidth opcode).size = if opcode < 0xB8 then 2 else 3 := by
  decide +kernel

theorem readOpcode_holds (opcode : UInt8) (position : Nat) (rest : List UInt8) :
    (Verdict.ofBytes (rest.length + 1) opcode (rest.getD 0 0)).Holds ⟨position, opcode :: rest⟩
      (readOpcode opcode ⟨position + 1, rest⟩) := by
  rw [ofBytes_eq]
  unfold readOpcode
  cases hfamily : Family.ofOpcode? opcode with
  | none => exact rfl
  | some family =>
    cases family with
    | registerMove => exact addressed_holds (finishes_register (.inl hfamily) _) _ position rest
    | immediateMove =>
      have hlength := immediateMove_length opcode hfamily
      simp only [immediateMove, ← hlength]
      exact ((takes_number _).map _).holds ⟨position, opcode :: rest⟩ (by simp)
    | immediateGroup => exact addressed_holds (finishes_group hfamily) _ position rest
    | registerAdd => exact addressed_holds (finishes_register (.inr hfamily) _) _ position rest

/-- Wherever reading an instruction begins and whatever is left there, it ends as the verdict on the
number of bytes left, the opcode and the addressing byte says. -/
theorem read_follows_verdict (position : Nat) (rest : List UInt8) :
    (Verdict.ofBytes rest.length (rest.getD 0 0) (rest.getD 1 0)).Holds ⟨position, rest⟩
      (read ⟨position, rest⟩) := by
  cases rest with
  | nil => exact rfl
  | cons opcode rest => exact readOpcode_holds opcode position rest

/-- Bytes that the operand lacks are missed before the operation, and other ones after it. -/
example : Verdict.ofBytes 3 0x81 0xB8 = .endOfInput 2 ∧
    Verdict.ofBytes 4 0x81 0xB8 = .groupOperation 7 4 ∧
    Verdict.ofBytes 5 0x81 0x80 = .endOfInput 4 := by
  decide

end Instruction

end Disasm8086
