import Disasm8086.Proofs.Locality
import Disasm8086.Proofs.Segments

/-!
# Extended buffers

More bytes behind a buffer with a fault change nothing about the fault, unless it is an end of
input. That one is told to be at another place, or is no longer there, as soon as two bytes follow;
and what was found in front of it stays.
-/
namespace Disasm8086

open Read Segment

variable {position : Nat} {rest suffix : List UInt8} {cause : Fault}

theorem Faulty.extend (h : Faulty position rest cause)
    (hcause : ∀ offset, cause ≠ .endOfInput offset) (suffix : List UInt8) :
    Faulty position (rest ++ suffix) cause := by
  obtain ⟨hrest, later, hread⟩ := h
  exact ⟨List.append_ne_nil_of_left_ne_nil hrest suffix, _,
    Instruction.stepwise_read.error_extend hread hcause⟩

theorem Faulty.not_extend {offset : Nat} (h : Faulty position rest (.endOfInput offset))
    (hsuffix : 2 ≤ suffix.length) : ¬ Faulty position (rest ++ suffix) (.endOfInput offset) := by
  obtain ⟨-, later, hread⟩ := h
  intro h
  obtain ⟨-, later', hread'⟩ := h
  exact Instruction.stepwise_read.endOfInput_extend hread hsuffix later' hread'

/-- Reading an instruction has faults of three kinds. -/
theorem Faulty.ne_addressingMode (h : Faulty position rest cause) (mode : UInt8) :
    cause ≠ .addressingMode mode := by
  obtain ⟨-, later, hread⟩ := h
  intro he
  rw [he] at hread
  exact Instruction.read_ne_addressingMode hread

/-- What is behind a run does not change what is found of the run. -/
theorem Sweep.map_ok_place_prefix (segments : List Segment) (rest : List UInt8) :
    (place 0 segments).map .ok <+: (ofBytes (flatten segments ++ rest)).items := by
  have hitems := items_running_flatten segments 0 0 rest
  exact ⟨_, hitems.symm⟩

namespace Listing

theorem disassemble_append_eq_error {bytes : List UInt8} {stop : Stop}
    (h : disassemble bytes = .error stop) (hcause : ∀ offset, stop.cause ≠ .endOfInput offset)
    (suffix : List UInt8) : disassemble (bytes ++ suffix) = .error stop := by
  obtain ⟨segments, rest, rfl, hfault, hindex, hoffset⟩ := disassemble_eq_error_iff.mp h
  rw [List.append_assoc]
  exact disassemble_eq_error_iff.mpr
    ⟨segments, rest ++ suffix, rfl, hfault.extend hcause suffix, hindex, hoffset⟩

theorem disassemble_append_ne_error {bytes : List UInt8} {stop : Stop} {offset : Nat}
    (h : disassemble bytes = .error stop) (hcause : stop.cause = .endOfInput offset)
    (hsuffix : 2 ≤ suffix.length) : disassemble (bytes ++ suffix) ≠ .error stop := by
  obtain ⟨segments, rest, rfl, hfault, hindex, hoffset⟩ := disassemble_eq_error_iff.mp h
  intro h'
  obtain ⟨segments', rest', hbytes, hfault', -, hoffset'⟩ := disassemble_eq_error_iff.mp h'
  -- The same fault again would be met at the same place, where there are now more bytes.
  have hlength : (flatten segments).length = (flatten segments').length :=
    hoffset.symm.trans hoffset'
  rw [List.append_assoc] at hbytes
  obtain ⟨-, rfl⟩ := List.append_inj hbytes hlength
  rw [hcause] at hfault hfault'
  rw [← hlength] at hfault'
  exact hfault.not_extend hsuffix hfault'

/-- Of the faults that leave a buffer without a listing, the end of input is the one that more
bytes can change. A fault of another kind is met whatever follows, with the same index, offset and
cause, and a mode that there is not is never the cause. An end of input is not met again when two
bytes or more follow, and the instructions found in front of it are still the first ones found. -/
theorem faults_of_extensions (bytes : List UInt8) (stop : Stop)
    (h : disassemble bytes = .error stop) :
    ((∃ opcode, stop.cause = .unknownOpcode opcode) ∨ (∃ reg, stop.cause = .groupOperation reg) →
      ∀ suffix, disassemble (bytes ++ suffix) = .error stop) ∧
    ((∃ offset, stop.cause = .endOfInput offset) → ∀ suffix, 2 ≤ suffix.length →
      disassemble (bytes ++ suffix) ≠ .error stop ∧
      ∃ placed : List Placed, placed.length = stop.index ∧
        (Sweep.ofBytes bytes).items = placed.map .ok ++ [.error stop] ∧
        placed.map .ok <+: (Sweep.ofBytes (bytes ++ suffix)).items) ∧
    ∀ mode, stop.cause ≠ .addressingMode mode := by
  refine ⟨?_, ?_, ?_⟩
  · intro hcause suffix
    apply disassemble_append_eq_error h
    intro offset he
    rcases hcause with ⟨opcode, hcause⟩ | ⟨reg, hcause⟩ <;> rw [hcause] at he <;> cases he
  · intro hcause suffix hsuffix
    obtain ⟨offset, hcause⟩ := hcause
    refine ⟨disassemble_append_ne_error h hcause hsuffix, ?_⟩
    obtain ⟨segments, rest, rfl, hfault, hindex, hoffset⟩ := disassemble_eq_error_iff.mp h
    refine ⟨place 0 segments, ?_, ?_, ?_⟩
    · rw [length_place, hindex]
    · rw [Sweep.items_faulty segments hfault, ← hindex, ← hoffset]
    · rw [List.append_assoc]
      exact Sweep.map_ok_place_prefix segments (rest ++ suffix)
  · obtain ⟨segments, rest, -, hfault, -, -⟩ := disassemble_eq_error_iff.mp h
    exact hfault.ne_addressingMode

/-- An operation of the group that the subset does not have, without its displacement and with. -/
theorem faults_of_extensions_group :
    (disassemble [0xB0, 0x05, 0x80, 0x78] = .error ⟨1, 2, .endOfInput 4⟩ ∧
      ∀ suffix, 2 ≤ suffix.length →
        disassemble ([0xB0, 0x05, 0x80, 0x78] ++ suffix) ≠ .error ⟨1, 2, .endOfInput 4⟩) ∧
    disassemble [0xB0, 0x05, 0x80, 0x78, 0x10] = .error ⟨1, 2, .groupOperation 7⟩ ∧
      ∀ suffix, disassemble ([0xB0, 0x05, 0x80, 0x78, 0x10] ++ suffix) =
        .error ⟨1, 2, .groupOperation 7⟩ := by
  have hmove : Instruction.Encodes (.movImmediate ⟨0, .byte⟩ 5 .byte) [0xB0, 0x05] := by decide
  have hshort : disassemble [0xB0, 0x05, 0x80, 0x78] = .error ⟨1, 2, .endOfInput 4⟩ :=
    @disassemble_faulty [⟨_, _, hmove⟩] [0x80, 0x78] _ ⟨by decide, _, rfl⟩
  have hlong : disassemble [0xB0, 0x05, 0x80, 0x78, 0x10] = .error ⟨1, 2, .groupOperation 7⟩ :=
    @disassemble_faulty [⟨_, _, hmove⟩] [0x80, 0x78, 0x10] _ ⟨by decide, _, rfl⟩
  refine ⟨⟨hshort, ?_⟩, hlong, ?_⟩
  · intro suffix hsuffix
    exact ((faults_of_extensions _ _ hshort).2.1 ⟨4, rfl⟩ suffix hsuffix).1
  · exact (faults_of_extensions _ _ hlong).1 (.inr ⟨7, rfl⟩)

end Listing

end Disasm8086
