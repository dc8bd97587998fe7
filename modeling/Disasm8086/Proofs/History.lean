import Mathlib.Algebra.Group.Nat.Defs
import Disasm8086.Proofs.Locality
import Disasm8086.Proofs.Plan
import Disasm8086.Proofs.Typing

/-!
# Histories of a reader

A reader may be used for bytes, words, operands and instructions in any order, and it may go on
after a fault. Whatever it was used for, it stands in its buffer, every place at which it looks is
there or is the end, and the fault at which bytes run out tells where it stands.
-/
namespace Disasm8086

open Read

/-- The uses of a reader. -/
inductive Call where
  | byte
  | word
  | operand (mode rm : UInt8) (width : Width)
  | instruction
  deriving DecidableEq, Repr

namespace Call

inductive Value where
  | byte (value : UInt8)
  | word (value : UInt16)
  | operand (operand : Operand)
  | instruction (instruction : Instruction)
  deriving DecidableEq, Repr

def read : Call → Read Value
  | .byte => do return .byte (← Read.byte)
  | .word => do return .word (← Read.word)
  | .operand mode rm width => do return .operand (← Operand.read mode rm width)
  | .instruction => do return .instruction (← Instruction.read)

/-- The values that a call may give. Register codes and `rm` fields in them are below eight, so they
are places in the tables of names. -/
def Gives : Call → Value → Prop
  | .byte, .byte _ => True
  | .word, .word _ => True
  | .operand _ _ width, .operand found => found.Addressable width
  | .instruction, .instruction found => found.WellTyped
  | _, _ => False

/-- The faults of a call whose bytes have not run out. -/
def Rejects : Call → Fault → Prop
  | .byte, _ | .word, _ => False
  | .operand mode _ _, fault =>
    fault = .addressingMode mode ∧ AddressingMode.ofBits? mode = none
  | .instruction, fault => Instruction.Rejects fault

end Call

/-- The reader is at a position of the buffer, which may be its end, and has the rest before it. -/
structure Reader.StandsIn (bytes : List UInt8) (reader : Reader) : Prop where
  position_le : reader.position ≤ bytes.length
  rest_eq : reader.rest = bytes.drop reader.position

/-- A demand is made inside of the buffer, where adding two to the position stays below `2 ^ 64`,
and it is met exactly if all of its bytes are in the buffer. -/
structure Read.Demand.LiesIn (bytes : List UInt8) (demand : Demand) : Prop where
  standsIn : demand.reader.StandsIn bytes
  position_add_two_lt : demand.reader.position + 2 < 2 ^ 64
  met_iff : (∃ value later, number demand.width demand.reader = .ok value later) ↔
    demand.reader.position + demand.width.size ≤ bytes.length

/-- What holds of a call to a reader of the buffer, whether it succeeds or not. -/
structure Call.Sound (bytes : List UInt8) (reader : Reader) (call : Call) : Prop where
  position_le : reader.position ≤ (call.read.after reader).position
  position_le_add : (call.read.after reader).position ≤ reader.position + 6
  gives : ∀ value later, call.read reader = .ok value later → call.Gives value
  eq_of_error : call = .byte ∨ call = .word →
    ∀ fault later, call.read reader = .error fault later → later = reader
  endOfInput : ∀ offset later, call.read reader = .error (.endOfInput offset) later →
    later.position = offset ∧ offset ≤ bytes.length ∧ bytes.length ≤ offset + 1
  addressingMode : ∀ mode later, call.read reader = .error (.addressingMode mode) later →
    3 < mode ∧ later = reader ∧ ∃ rm width, call = .operand mode rm width
  exists_plan : ∃ plan : Plan Call.Value, plan.read = call.read
  /-- The bytes and words that the call is made of are demanded inside of the buffer. -/
  demands : ∀ plan : Plan Call.Value, plan.read = call.read →
    ∀ demand ∈ plan.demands reader, demand.LiesIn bytes
  /-- If the bytes run out, they do at the last demand, and if this is one byte then at the end of
  the buffer. -/
  getLast_demands : ∀ plan : Plan Call.Value, plan.read = call.read →
    ∀ offset later, call.read reader = .error (.endOfInput offset) later →
      ∃ width, (plan.demands reader).getLast? = some ⟨width, later⟩ ∧
        (width = .byte → offset = bytes.length)

/-- The reader after some calls, of which each goes on where the one before it stopped. -/
def Reader.afterCalls (reader : Reader) (calls : List Call) : Reader :=
  calls.foldl (fun reader call => call.read.after reader) reader

namespace Reader

variable {bytes : List UInt8} {reader later : Reader}

theorem standsIn_ofBytes (bytes : List UInt8) : (ofBytes bytes).StandsIn bytes :=
  ⟨Nat.zero_le _, rfl⟩

theorem StandsIn.of_passes (h : reader.StandsIn bytes) (hpasses : reader.Passes later) :
    later.StandsIn bytes := by
  obtain ⟨taken, hrest, hposition⟩ := hpasses
  obtain ⟨hle, hdrop⟩ := h
  have hlength : reader.rest.length = taken.length + later.rest.length := by
    rw [hrest, List.length_append]
  rw [hdrop, List.length_drop] at hlength
  constructor
  · omega
  · rw [hposition, ← List.drop_drop, ← hdrop, hrest, List.drop_left]

theorem StandsIn.position_add_length (h : reader.StandsIn bytes) :
    reader.position + reader.rest.length = bytes.length := by
  have hle := h.position_le
  rw [h.rest_eq, List.length_drop]
  omega

/-- Nothing is left exactly at the end of the buffer. -/
theorem StandsIn.hasMore_eq_false_iff (h : reader.StandsIn bytes) :
    reader.hasMore = false ↔ reader.position = bytes.length := by
  have hlength := h.position_add_length
  have hmore : reader.hasMore = false ↔ reader.rest.length = 0 := by simp [hasMore]
  rw [hmore]
  omega

end Reader

namespace Call

theorem within_read (call : Call) : Within call.Rejects 6 call.read := by
  cases call with
  | byte => exact (within_byte.bind fun _ => .pure 0 _).mono (by decide)
  | word => exact (within_word.bind fun _ => .pure 0 _).mono (by decide)
  | operand mode rm width =>
    exact ((Operand.within_read mode rm width).bind fun _ => .pure 0 _).mono (by decide)
  | instruction => exact Instruction.within_read.bind fun _ => .pure 0 _

theorem forward_read (call : Call) : Forward call.read :=
  call.within_read.stepwise.forward

theorem gives_of_read {call : Call} {reader later : Reader} {value : Value}
    (hread : call.read reader = .ok value later) : call.Gives value := by
  cases call with
  | byte =>
    obtain ⟨b, middle, -, hvalue⟩ := bind_eq_ok.mp hread
    cases hvalue
    exact trivial
  | word =>
    obtain ⟨word, middle, -, hvalue⟩ := bind_eq_ok.mp hread
    cases hvalue
    exact trivial
  | operand mode rm width =>
    obtain ⟨found, middle, hfound, hvalue⟩ := bind_eq_ok.mp hread
    cases hvalue
    exact Operand.addressable_of_read hfound
  | instruction =>
    obtain ⟨found, middle, hfound, hvalue⟩ := bind_eq_ok.mp hread
    cases hvalue
    exact Instruction.wellTyped_of_read hfound

/-- A mode that there is not is met by operands only, and in front of all of their bytes. -/
theorem of_read_eq_addressingMode {call : Call} {reader later : Reader} {mode : UInt8}
    (hread : call.read reader = .error (.addressingMode mode) later) :
    3 < mode ∧ later = reader ∧ ∃ rm width, call = .operand mode rm width := by
  obtain hrejects | ⟨offset, he, -⟩ := call.within_read.error hread
  · cases call with
    | byte => exact hrejects.elim
    | word => exact hrejects.elim
    | operand mode' rm width =>
      obtain ⟨he, hnone⟩ := hrejects
      cases he
      have hthrow : Operand.read mode rm width = throw (.addressingMode mode) := by
        simp only [Operand.read, hnone]
      rw [read, hthrow] at hread
      cases hread
      refine ⟨?_, rfl, rm, width, rfl⟩
      by_contra hmode
      rcases Operand.eq_of_mode_le (UInt8.not_lt.mp hmode) with rfl | rfl | rfl | rfl <;>
        cases hnone
    | instruction => exact hrejects.elim
  · cases he

theorem endOfInput_bounds {bytes : List UInt8} {reader later : Reader} {offset : Nat}
    (h : reader.StandsIn bytes) {call : Call}
    (hread : call.read reader = .error (.endOfInput offset) later) :
    later.position = offset ∧ offset ≤ bytes.length ∧ bytes.length ≤ offset + 1 := by
  obtain ⟨hposition, hlength⟩ := call.within_read.stepwise.endOfInput hread
  have hend := (h.of_passes (call.forward_read.of_error hread)).position_add_length
  omega

theorem demand_liesIn {bytes : List UInt8} {reader : Reader} (h : reader.StandsIn bytes)
    (hlength : bytes.length < 2 ^ 63) {plan : Plan Value} {demand : Demand}
    (hmem : demand ∈ plan.demands reader) : demand.LiesIn bytes := by
  have hstands := h.of_passes (Plan.passes_of_mem_demands hmem)
  have hle := hstands.position_le
  have hend := hstands.position_add_length
  constructor
  · exact hstands
  · omega
  · rw [(takes_number demand.width).exists_ok_iff]
    omega

/-- Only the bytes that a last word needs may be there in part. -/
theorem getLast_demands_of_endOfInput {bytes : List UInt8} {reader later : Reader} {offset : Nat}
    (h : reader.StandsIn bytes) {call : Call} {plan : Plan Value} (hplan : plan.read = call.read)
    (hread : call.read reader = .error (.endOfInput offset) later) :
    ∃ width, (plan.demands reader).getLast? = some ⟨width, later⟩ ∧
      (width = .byte → offset = bytes.length) := by
  obtain ⟨hposition, -, -⟩ := endOfInput_bounds h hread
  have hend := (h.of_passes (call.forward_read.of_error hread)).position_add_length
  rw [← hplan] at hread
  obtain ⟨width, hlast, hshort⟩ := Plan.exists_getLast_demands hread
  refine ⟨width, hlast, ?_⟩
  rintro rfl
  rw [Width.size] at hshort
  omega

/-- One call to a reader of the buffer. -/
theorem sound {bytes : List UInt8} {reader : Reader} (h : reader.StandsIn bytes)
    (hlength : bytes.length < 2 ^ 63) (call : Call) : call.Sound bytes reader where
  position_le := by
    obtain ⟨taken, -, hposition⟩ := call.forward_read reader
    omega
  position_le_add := call.within_read.position_after_le reader
  gives _ _ hread := gives_of_read hread
  eq_of_error hcall _ _ hread := by
    rcases hcall with rfl | rfl
    · exact (takes_byte.map Value.byte).eq_of_error hread
    · exact (takes_word.map Value.word).eq_of_error hread
  endOfInput _ _ hread := endOfInput_bounds h hread
  addressingMode _ _ hread := of_read_eq_addressingMode hread
  exists_plan := call.within_read.stepwise.exists_plan
  demands _ _ _ hmem := demand_liesIn h hlength hmem
  getLast_demands _ hplan _ _ hread := getLast_demands_of_endOfInput h hplan hread

end Call

namespace Reader

theorem afterCalls_append (reader : Reader) (calls more : List Call) :
    reader.afterCalls (calls ++ more) = (reader.afterCalls calls).afterCalls more :=
  List.foldl_append

theorem passes_afterCalls (reader : Reader) (calls : List Call) :
    reader.Passes (reader.afterCalls calls) := by
  induction calls generalizing reader with
  | nil => exact .refl reader
  | cons call calls ih => exact (call.forward_read reader).trans (ih (call.read.after reader))

/-- A reader stays in its buffer under any calls, also behind faults: it has reached the end exactly
if nothing is left, and more calls move it forward at most. Each further call is sound. -/
theorem afterCalls_standsIn (bytes : List UInt8) (hlength : bytes.length < 2 ^ 63)
    (calls : List Call) :
    ((ofBytes bytes).afterCalls calls).StandsIn bytes ∧
    (((ofBytes bytes).afterCalls calls).hasMore = false ↔
      ((ofBytes bytes).afterCalls calls).position = bytes.length) ∧
    (∀ more, ((ofBytes bytes).afterCalls calls).position ≤
      ((ofBytes bytes).afterCalls (calls ++ more)).position) ∧
    ∀ call : Call, call.Sound bytes ((ofBytes bytes).afterCalls calls) := by
  have hstands := (standsIn_ofBytes bytes).of_passes (passes_afterCalls (ofBytes bytes) calls)
  refine ⟨hstands, hstands.hasMore_eq_false_iff, ?_, Call.sound hstands hlength⟩
  intro more
  rw [afterCalls_append]
  obtain ⟨taken, -, hposition⟩ := passes_afterCalls ((ofBytes bytes).afterCalls calls) more
  omega

/-- Half a displacement is left behind a move that was cut and a mode that there is not. A word ends
in front of it, where one byte is there. -/
theorem afterCalls_standsIn_cut :
    ([0x8B, 0x87, 0x34] : List UInt8).length < 2 ^ 63 ∧
    (ofBytes [0x8B, 0x87, 0x34]).afterCalls [.instruction, .operand 5 0 .word] = ⟨2, [0x34]⟩ ∧
    StandsIn [0x8B, 0x87, 0x34] ⟨2, [0x34]⟩ ∧
    Call.word.read ⟨2, [0x34]⟩ = .error (.endOfInput 2) ⟨2, [0x34]⟩ ∧
    (∀ call : Call, call.Sound [0x8B, 0x87, 0x34] ⟨2, [0x34]⟩) := by
  have hlength : ([0x8B, 0x87, 0x34] : List UInt8).length < 2 ^ 63 := by decide
  have hafter : (ofBytes [0x8B, 0x87, 0x34]).afterCalls [.instruction, .operand 5 0 .word] =
      ⟨2, [0x34]⟩ := rfl
  obtain ⟨hstands, -, -, hsound⟩ :=
    afterCalls_standsIn [0x8B, 0x87, 0x34] hlength [.instruction, .operand 5 0 .word]
  rw [hafter] at hstands hsound
  exact ⟨hlength, hafter, hstands, rfl, hsound⟩

end Reader

end Disasm8086
