import Mathlib.Order.Bounds.Basic
import Disasm8086.Proofs.Locality
import Disasm8086.Proofs.Segments

/-!
# Cut buffers

A buffer that is cut has a listing exactly if the cut is between two instructions. A cut inside an
instruction is an end of input, found behind the first byte of the instruction, and a cut in the
bytes behind the last instruction is some fault at the place of the last cut that has a listing.
-/
namespace Disasm8086

open Read Segment

variable {α : Type}

/-- A read that takes some bytes and more runs out of input when it has the first of them only. -/
theorem Read.Stepwise.error_of_append {read : Read α} (h : Stepwise read) {position : Nat}
    {cut more rest : List UInt8} {a : α} (hmore : more ≠ [])
    (hread : read ⟨position, cut ++ (more ++ rest)⟩ =
      .ok a ⟨position + (cut ++ more).length, rest⟩) : ∃ offset later,
      read ⟨position, cut⟩ = .error (.endOfInput offset) later ∧
        position ≤ offset ∧ offset ≤ position + cut.length := by
  cases hcut : read ⟨position, cut⟩ with
  | ok b later =>
    -- The read would stop at the same place with the other bytes behind, which it passes.
    have hwhole := (h.ok_extend hcut).symm.trans hread
    injection hwhole with _ hlater
    have hposition : later.position = position + (cut ++ more).length :=
      congrArg Reader.position hlater
    have hend := (h.forward.of_ok hcut).position_add_length
    have hpos := List.length_pos_iff.mpr hmore
    simp only [List.length_append] at hend hposition
    omega
  | error fault later =>
    by_cases hfault : ∃ offset, fault = .endOfInput offset
    · obtain ⟨offset, rfl⟩ := hfault
      have hend := (h.forward.of_error hcut).position_add_length
      have hoffset := (h.endOfInput hcut).1
      simp only at hend
      exact ⟨offset, later, rfl, h.position_le hcut, by omega⟩
    · have hwhole : read ⟨position, cut ++ (more ++ rest)⟩ = .error fault _ :=
        h.error_extend hcut fun offset he => hfault ⟨offset, he⟩
      cases hwhole.symm.trans hread

/-- An instruction cut behind its first byte or later is an end of input behind its first byte. -/
theorem Segment.read_cut (segment : Segment) {cut more : List UInt8}
    (h : segment.bytes = cut ++ more) (hcut : cut ≠ []) (hmore : more ≠ []) (position : Nat) :
    ∃ offset later, Instruction.read ⟨position, cut⟩ = .error (.endOfInput offset) later ∧
      position < offset ∧ offset ≤ position + cut.length := by
  obtain ⟨opcode, rest, hbytes, hfollows⟩ := segment.encodes.follows
  cases cut with
  | nil => exact absurd rfl hcut
  | cons first cut =>
    rw [hbytes, List.cons_append, List.cons.injEq] at h
    obtain ⟨rfl, rfl⟩ := h
    have hread := (Instruction.accepts_readOpcode opcode).run hfollows (position + 1) []
    rw [List.append_assoc] at hread
    obtain ⟨offset, later, hlater, hlow, hhigh⟩ :=
      (Instruction.stepwise_readOpcode opcode).error_of_append hmore hread
    refine ⟨offset, later, hlater, by omega, ?_⟩
    rw [List.length_cons]
    omega

/-- Bytes that begin with no instruction do not begin with one when they are cut. -/
theorem Faulty.of_prefix {position : Nat} {rest cut : List UInt8} {cause : Fault}
    (h : Faulty position rest cause) (hcut : cut <+: rest) (hnil : cut ≠ []) :
    ∃ cause, Faulty position cut cause := by
  obtain ⟨-, later, hread⟩ := h
  obtain ⟨more, rfl⟩ := hcut
  cases hcutread : Instruction.read ⟨position, cut⟩ with
  | error cause later => exact ⟨cause, hnil, later, hcutread⟩
  | ok instruction later' =>
    obtain ⟨taken, htaken, hrest, -⟩ := (Instruction.accepts_read _ _ _).mp hcutread
    change cut = taken ++ later'.rest at hrest
    have hwhole := Instruction.accepts_read.run htaken position (later'.rest ++ more)
    rw [← List.append_assoc, ← hrest, hread] at hwhole
    cases hwhole

/-- What a cut leaves behind the instructions it keeps: a begin of the next instruction, or of the
bytes that follow the last one. -/
inductive Cut (rest : List UInt8) : List Segment → List UInt8 → Prop where
  | inside {segment : Segment} {after : List Segment} {cut more : List UInt8}
    (hbytes : segment.bytes = cut ++ more) (hmore : more ≠ []) : Cut rest (segment :: after) cut
  | behind {cut : List UInt8} (hcut : cut <+: rest) : Cut rest [] cut

theorem exists_cut (segments : List Segment) (rest : List UInt8) {k : Nat}
    (hk : k ≤ (flatten segments ++ rest).length) : ∃ before after cut,
      segments = before ++ after ∧ Cut rest after cut ∧
        (flatten segments ++ rest).take k = flatten before ++ cut ∧
        k = (flatten before).length + cut.length := by
  induction segments generalizing k with
  | nil =>
    refine ⟨[], [], rest.take k, rfl, .behind (List.take_prefix k rest), rfl, ?_⟩
    rw [flatten_nil, List.nil_append] at hk
    rw [List.length_take, flatten_nil, List.length_nil]
    omega
  | cons segment segments ih =>
    rw [flatten_cons, List.append_assoc, List.length_append] at hk
    rw [flatten_cons, List.append_assoc]
    -- Either the cut is inside the first instruction, or that instruction is kept.
    by_cases hinside : k < segment.bytes.length
    · refine ⟨[], segment :: segments, segment.bytes.take k, rfl,
        .inside (List.take_append_drop k segment.bytes).symm ?_, ?_, ?_⟩
      · rw [ne_eq, List.drop_eq_nil_iff]
        omega
      · rw [flatten_nil, List.nil_append, List.take_append_of_le_length (by omega)]
      · rw [flatten_nil, List.length_take, List.length_nil]
        omega
    · obtain ⟨before, after, cut, rfl, hcut, htake, hlength⟩ :=
        ih (k := k - segment.bytes.length) (by omega)
      refine ⟨segment :: before, after, cut, rfl, hcut, ?_, ?_⟩
      · rw [List.take_append, htake, List.take_of_length_le (by omega), flatten_cons,
          List.append_assoc]
      · rw [flatten_cons, List.length_append]
        omega

namespace Cut

variable {rest cut : List UInt8} {after : List Segment}

/-- A cut ends before the next instruction does. -/
theorem lt_nextOffset (h : Cut rest after cut) {position : Nat} {item : Placed}
    (hitem : item ∈ place position after) : position + cut.length < item.nextOffset := by
  cases h with
  | @inside segment after _ more hbytes hmore =>
    have hpos := List.length_pos_iff.mpr hmore
    have hlength := congrArg List.length hbytes
    rw [List.length_append] at hlength
    cases hitem with
    | head =>
      simp only [Placed.nextOffset, segment.toNat_size]
      omega
    | tail _ hitem =>
      have hoffset := (offset_bounds hitem).1
      have hnext := offset_lt_nextOffset hitem
      omega
  | behind _ => cases hitem

/-- The bytes that a cut leaves behind its instructions are a fault, inside an instruction an end
of input. -/
theorem faulty (h : Cut rest after cut) (hnil : cut ≠ []) {position : Nat}
    (hrest : Ends (position + (flatten after).length) rest) :
    ∃ cause, Faulty position cut cause ∧
      ∀ item ∈ place position after, item.offset < position + cut.length →
        ∃ offset, cause = .endOfInput offset ∧ item.offset < offset ∧
          offset ≤ position + cut.length := by
  cases h with
  | @inside segment after _ more hbytes hmore =>
    obtain ⟨offset, later, hread, hlow, hhigh⟩ := segment.read_cut hbytes hnil hmore position
    refine ⟨_, ⟨hnil, later, hread⟩, ?_⟩
    intro item hitem hoffset
    have hlength := congrArg List.length hbytes
    rw [List.length_append] at hlength
    cases hitem with
    | head => exact ⟨offset, rfl, hlow, hhigh⟩
    | tail _ hitem =>
      have hbounds := (offset_bounds hitem).1
      omega
  | behind hcut =>
    rcases hrest with hrest | ⟨cause, hfault⟩
    · rw [hrest, List.prefix_nil] at hcut
      exact absurd hcut hnil
    · rw [flatten_nil, List.length_nil, Nat.add_zero] at hfault
      obtain ⟨cause, hfault⟩ := hfault.of_prefix hcut hnil
      exact ⟨cause, hfault, fun _ hitem => by cases hitem⟩

end Cut

namespace Listing

/-- The begin of a buffer and the ends of the instructions that are found in it. -/
def boundaries (bytes : List UInt8) : List Nat :=
  0 :: (Sweep.found bytes).map Placed.nextOffset

/-- The instructions found in a buffer that end at `k` or before. -/
def foundUpTo (bytes : List UInt8) (k : Nat) : List Placed :=
  (Sweep.found bytes).filter fun item => item.nextOffset ≤ k

section

variable {bytes rest cut : List UInt8} {before after : List Segment} {k : Nat}

theorem foundUpTo_of_cut (hfound : Sweep.found bytes = place 0 (before ++ after))
    (hcut : Cut rest after cut) (hk : k = (flatten before).length + cut.length) :
    foundUpTo bytes k = place 0 before := by
  rw [foundUpTo, hfound, place_append, Nat.zero_add, List.filter_append,
    List.filter_eq_self.mpr, List.filter_eq_nil_iff.mpr, List.append_nil]
  · intro item hitem
    have h := hcut.lt_nextOffset hitem
    rw [decide_eq_true_iff]
    omega
  · intro item hitem
    have h := (offset_bounds hitem).2
    rw [decide_eq_true_iff]
    omega

theorem isGreatest_of_cut (hfound : Sweep.found bytes = place 0 (before ++ after))
    (hcut : Cut rest after cut) (hk : k = (flatten before).length + cut.length) :
    IsGreatest {b | b ∈ boundaries bytes ∧ b ≤ k} (flatten before).length := by
  rw [boundaries, hfound, place_append, Nat.zero_add, List.map_append]
  constructor
  · have h := end_mem_boundaries 0 before
    rw [Nat.zero_add] at h
    exact ⟨List.mem_append_left _ h, by omega⟩
  · rintro b ⟨hb, hle⟩
    rw [← List.cons_append, List.mem_append, List.mem_cons, List.mem_map, List.mem_map] at hb
    rcases hb with (rfl | ⟨item, hitem, rfl⟩) | ⟨item, hitem, rfl⟩
    · exact Nat.zero_le _
    · have h := (offset_bounds hitem).2
      omega
    · have h := hcut.lt_nextOffset hitem
      omega

end

/-- A cut keeps the instructions in front of it. It leaves a listing if it is where one of them
ends, and a fault at the end of the last of them if it is not. -/
theorem disassemble_take_eq (bytes : List UInt8) {k : Nat} (hk : k ≤ bytes.length) :
    ∃ offset, IsGreatest {b | b ∈ boundaries bytes ∧ b ≤ k} offset ∧
      (offset = k ∧ disassemble (bytes.take k) = .ok (ofInstructions (foundUpTo bytes k)) ∨
        offset < k ∧ ∃ cause,
          disassemble (bytes.take k) = .error ⟨(foundUpTo bytes k).length, offset, cause⟩ ∧
          ∀ item ∈ Sweep.found bytes, item.offset < k → k < item.nextOffset →
            ∃ position, cause = .endOfInput position ∧ item.offset < position ∧ position ≤ k) := by
  obtain ⟨segments, rest, rfl, hend⟩ := exists_segments bytes
  obtain ⟨before, after, cut, rfl, hcut, htake, hlength⟩ := exists_cut segments rest hk
  have hfound := Sweep.found_flatten_append (before ++ after) hend
  refine ⟨(flatten before).length, isGreatest_of_cut hfound hcut hlength, ?_⟩
  rw [foundUpTo_of_cut hfound hcut hlength, htake]
  by_cases hnil : cut = []
  · left
    rw [hnil, List.length_nil] at hlength
    rw [hnil, List.append_nil]
    exact ⟨hlength.symm, disassemble_flatten before⟩
  · right
    have hpos := List.length_pos_iff.mpr hnil
    rw [flatten_append, List.length_append] at hend
    obtain ⟨cause, hfault, hinside⟩ := hcut.faulty hnil hend
    rw [← hlength] at hinside
    refine ⟨by omega, cause, ?_, ?_⟩
    · rw [length_place]
      exact disassemble_faulty before hfault
    · intro item hitem hoffset hnext
      rw [hfound, place_append, Nat.zero_add, List.mem_append] at hitem
      rcases hitem with hitem | hitem
      · have h := (offset_bounds hitem).2
        omega
      · exact hinside item hitem hoffset

theorem exists_disassemble_take_iff {bytes : List UInt8} {k : Nat} (hk : k ≤ bytes.length) :
    (∃ text, disassemble (bytes.take k) = .ok text) ↔ k ∈ boundaries bytes := by
  obtain ⟨offset, hgreatest, h⟩ := disassemble_take_eq bytes hk
  constructor
  · intro hok
    obtain ⟨text, htext⟩ := hok
    rcases h with ⟨rfl, -⟩ | ⟨-, cause, herror, -⟩
    · exact hgreatest.1.1
    · rw [herror] at htext
      cases htext
  · intro hmem
    have hle := hgreatest.2 ⟨hmem, Nat.le_refl k⟩
    rcases h with ⟨-, hok⟩ | ⟨hlt, -⟩
    · exact ⟨_, hok⟩
    · omega

/-- A buffer with a fault has a listing up to the offset of the fault, and no further. -/
theorem isGreatest_of_error {bytes : List UInt8} {stop : Stop}
    (h : disassemble bytes = .error stop) :
    IsGreatest {k | k ≤ bytes.length ∧ ∃ text, disassemble (bytes.take k) = .ok text}
      stop.offset := by
  obtain ⟨offset, hgreatest, hend⟩ := disassemble_take_eq bytes (Nat.le_refl bytes.length)
  rw [List.take_length, h] at hend
  rcases hend with ⟨-, hok⟩ | ⟨-, cause, herror, -⟩
  · cases hok
  · cases herror
    constructor
    · exact ⟨hgreatest.1.2, (exists_disassemble_take_iff hgreatest.1.2).mpr hgreatest.1.1⟩
    · intro k hk
      exact hgreatest.2 ⟨(exists_disassemble_take_iff hk.1).mp hk.2, hk.1⟩

/-- The index of a fault counts the instructions up to its offset. -/
theorem length_found_of_error {bytes : List UInt8} {stop : Stop}
    (h : disassemble bytes = .error stop) :
    (Sweep.found (bytes.take stop.offset)).length = stop.index := by
  obtain ⟨segments, rest, rfl, -, hindex, hoffset⟩ := disassemble_eq_error_iff.mp h
  rw [hoffset, List.take_left, Sweep.found_flatten, length_place, hindex]

/-- Cutting a buffer finds the boundaries of its instructions. The cuts that leave a listing are at
the boundaries, and the listing shows the instructions in front of the cut; any other cut is a
fault at the last boundary in front of it, and an end of input if it is inside an instruction. So a
fault is reported at the end of the longest begin of the buffer that has a listing. -/
theorem listings_of_cuts (bytes : List UInt8) :
    (∀ k ≤ bytes.length,
      ((∃ text, disassemble (bytes.take k) = .ok text) ↔ k ∈ boundaries bytes) ∧
      (k ∈ boundaries bytes → disassemble (bytes.take k) = .ok ("bits 16\n\n" ++
        String.join ((foundUpTo bytes k).map fun item => item.instruction.text ++ "\n"))) ∧
      (k ∉ boundaries bytes → ∃ offset cause,
        IsGreatest {b | b ∈ boundaries bytes ∧ b ≤ k} offset ∧
        disassemble (bytes.take k) = .error ⟨(foundUpTo bytes k).length, offset, cause⟩ ∧
        ∀ item ∈ Sweep.found bytes, item.offset < k → k < item.nextOffset →
          ∃ position, cause = .endOfInput position ∧ item.offset < position ∧ position ≤ k)) ∧
    ∀ stop, disassemble bytes = .error stop →
      IsGreatest {k | k ≤ bytes.length ∧ ∃ text, disassemble (bytes.take k) = .ok text}
        stop.offset ∧
      (Sweep.found (bytes.take stop.offset)).length = stop.index := by
  refine ⟨fun k hk => ⟨exists_disassemble_take_iff hk, ?_⟩,
    fun stop h => ⟨isGreatest_of_error h, length_found_of_error h⟩⟩
  obtain ⟨offset, hgreatest, h⟩ := disassemble_take_eq bytes hk
  constructor
  · intro hmem
    have hle := hgreatest.2 ⟨hmem, Nat.le_refl k⟩
    rcases h with ⟨-, hok⟩ | ⟨hlt, -⟩
    · exact hok
    · omega
  · intro hmem
    rcases h with ⟨rfl, -⟩ | ⟨-, cause, herror, hinside⟩
    · exact absurd hgreatest.1.1 hmem
    · exact ⟨offset, cause, hgreatest, herror, hinside⟩

/-- A move and an addition, and behind them an operation that is not of the subset: a cut behind the
addition, one inside it, one inside the failing bytes, and the whole. -/
theorem listings_of_cuts_move :
    let bytes := [0x89, 0xD9, 0x83, 0xC0, 0x02, 0x81, 0xF8]
    boundaries bytes = [0, 2, 5] ∧
      disassemble (bytes.take 5) = .ok "bits 16\n\nmov cx, bx\nadd ax, 2\n" ∧
      (IsGreatest {b | b ∈ boundaries bytes ∧ b ≤ 4} 2 ∧
        disassemble (bytes.take 4) = .error ⟨1, 2, .endOfInput 4⟩) ∧
      (IsGreatest {b | b ∈ boundaries bytes ∧ b ≤ 6} 5 ∧
        disassemble (bytes.take 6) = .error ⟨2, 5, .endOfInput 6⟩) ∧
      disassemble bytes = .error ⟨2, 5, .groupOperation 7⟩ ∧
      IsGreatest {k | k ≤ bytes.length ∧ ∃ text, disassemble (bytes.take k) = .ok text} 5 := by
  intro bytes
  have hfound : Sweep.found bytes = [⟨0, 2, .mov (.reg ⟨1, .word⟩) (.reg ⟨3, .word⟩)⟩,
      ⟨2, 3, .add (.reg ⟨0, .word⟩) (.imm ⟨2, .word⟩) false⟩] := by
    decide +kernel
  have hboundaries : boundaries bytes = [0, 2, 5] := by
    rw [boundaries, hfound]
    decide
  obtain ⟨hcuts, hfault⟩ := listings_of_cuts bytes
  have hinside : disassemble (bytes.take 4) = .error ⟨1, 2, .endOfInput 4⟩ := by
    decide +kernel
  have htail : disassemble (bytes.take 6) = .error ⟨2, 5, .endOfInput 6⟩ := by
    decide +kernel
  have hwhole : disassemble bytes = .error ⟨2, 5, .groupOperation 7⟩ := by
    decide +kernel
  refine ⟨hboundaries, ?_, ⟨?_, hinside⟩, ⟨?_, htail⟩, hwhole, (hfault _ hwhole).1⟩
  · rw [(hcuts 5 (by decide)).2.1 (by rw [hboundaries]; decide), foundUpTo, hfound]
    decide +kernel
  · obtain ⟨offset, cause, hgreatest, herror, -⟩ :=
      (hcuts 4 (by decide)).2.2 (by rw [hboundaries]; decide)
    rw [hinside, Except.error.injEq, Stop.mk.injEq] at herror
    rw [herror.2.1]
    exact hgreatest
  · obtain ⟨offset, cause, hgreatest, herror, -⟩ :=
      (hcuts 6 (by decide)).2.2 (by rw [hboundaries]; decide)
    rw [htail, Except.error.injEq, Stop.mk.injEq] at herror
    rw [herror.2.1]
    exact hgreatest

end Listing

end Disasm8086
