import Mathlib.Data.List.Chain
import Disasm8086.Proofs.Factorization
import Disasm8086.Proofs.Locality

/-!
# Sweeps tile their buffer

The instructions that a sweep finds lie in the buffer one behind the other, from its first byte on.
Each is between two and six bytes long, and its bytes alone are read as the same instruction. They
fill the buffer, or a fault follows them, which is placed where the last of them ends.
-/
namespace Disasm8086

open Read Segment

/-- The sizes of instructions, added up. -/
def Placed.total : List Placed → Nat
  | [] => 0
  | item :: items => item.size.toNat + total items

namespace Segment

theorem total_place (position : Nat) (segments : List Segment) :
    Placed.total (place position segments) = (flatten segments).length := by
  induction segments generalizing position with
  | nil => rfl
  | cons segment segments ih => simp [place, Placed.total, ih, segment.toNat_size]

theorem length_flatten_bounds (segments : List Segment) :
    2 * segments.length ≤ (flatten segments).length ∧
      (flatten segments).length ≤ 6 * segments.length := by
  induction segments with
  | nil => exact ⟨Nat.le_refl 0, Nat.le_refl 0⟩
  | cons segment segments ih =>
    have hlength := segment.length_bytes
    rw [flatten_cons, List.length_append, List.length_cons]
    omega

theorem offset_head_place {position : Nat} {segments : List Segment} :
    ∀ first ∈ (place position segments).head?, first.offset = position := by
  cases segments with
  | nil => simp [place]
  | cons segment segments => simp [place]

/-- Each instruction of a run begins where the one in front of it ends. -/
theorem isChain_place (position : Nat) (segments : List Segment) :
    (place position segments).IsChain fun item next => next.offset = item.nextOffset := by
  induction segments generalizing position with
  | nil => exact .nil
  | cons segment segments ih =>
    rw [place, List.isChain_cons]
    refine ⟨?_, ih _⟩
    rw [Placed.nextOffset, segment.toNat_size]
    exact offset_head_place

/-- An instruction of a run is one of its segments, behind the bytes of those in front of it. -/
theorem exists_of_mem_place {position : Nat} {segments : List Segment} {item : Placed}
    (h : item ∈ place position segments) : ∃ before segment after,
      segments = before ++ segment :: after ∧ item = ⟨position + (flatten before).length,
        .ofNat segment.bytes.length, segment.instruction⟩ := by
  induction segments generalizing position with
  | nil => cases h
  | cons segment segments ih =>
    cases h with
    | head => exact ⟨[], segment, segments, rfl, rfl⟩
    | tail _ h =>
      obtain ⟨before, segment', after, rfl, rfl⟩ := ih h
      refine ⟨segment :: before, segment', after, rfl, ?_⟩
      rw [flatten_cons, List.length_append, Nat.add_assoc]

end Segment

/-- What a sweep tells of an instruction: its place in the buffer, which is two to six bytes, and
what these bytes are read as, where they stand and alone. -/
structure Placed.LiesIn (item : Placed) (bytes : List UInt8) : Prop where
  two_le : 2 ≤ item.size.toNat
  le_six : item.size.toNat ≤ 6
  inside : item.nextOffset ≤ bytes.length
  read : Instruction.read ⟨item.offset, bytes.drop item.offset⟩ =
    .ok item.instruction ⟨item.nextOffset, bytes.drop item.nextOffset⟩
  alone : item.instruction.Spans ((bytes.drop item.offset).take item.size.toNat)

theorem Placed.liesIn_of_mem {segments : List Segment} {item : Placed}
    (h : item ∈ place 0 segments) (rest : List UInt8) :
    item.LiesIn (flatten segments ++ rest) := by
  obtain ⟨before, segment, after, rfl, rfl⟩ := exists_of_mem_place h
  have hlength := segment.length_bytes
  have hbytes : flatten (before ++ segment :: after) ++ rest =
      flatten before ++ (segment.bytes ++ (flatten after ++ rest)) := by simp
  have hdrop (more : List UInt8) : (flatten before ++ (segment.bytes ++ more)).drop
      ((flatten before).length + segment.bytes.length) = more := by
    rw [← List.append_assoc, ← List.length_append, List.drop_left]
  rw [hbytes]
  constructor
  · rw [segment.toNat_size]
    exact hlength.1
  · rw [segment.toNat_size]
    exact hlength.2
  · simp only [Placed.nextOffset, segment.toNat_size, List.length_append]
    omega
  · simp only [Placed.nextOffset, segment.toNat_size, Nat.zero_add, List.drop_left, hdrop]
    exact segment.read_append _ _
  · simp only [segment.toNat_size, Nat.zero_add, List.drop_left, List.take_left]
    exact Instruction.spans_iff_encodes.mpr segment.encodes

namespace Sweep

/-- A sweep finds instructions that lie one behind the other from the first byte of the buffer on.
Either they fill the buffer, or one fault is found after them: its index is their number, its
offset their size, and bytes are left there. If the bytes run out, it is behind the first byte of
the instruction and before its sixth one, where at most one byte is left. -/
theorem items_tile (bytes : List UInt8) : ∃ placed : List Placed,
    (∀ first ∈ placed.head?, first.offset = 0) ∧
    (placed.IsChain fun item next => next.offset = item.nextOffset) ∧
    (∀ item ∈ placed, item.LiesIn bytes) ∧
    ((ofBytes bytes).items = placed.map .ok ∧ Placed.total placed = bytes.length ∧
        2 * placed.length ≤ bytes.length ∧ bytes.length ≤ 6 * placed.length ∨
      ∃ stop, (ofBytes bytes).items = placed.map .ok ++ [.error stop] ∧
        stop.index = placed.length ∧ stop.offset = Placed.total placed ∧
        2 * placed.length ≤ stop.offset ∧ stop.offset ≤ 6 * placed.length ∧
        stop.offset < bytes.length ∧
        ∀ offset, stop.cause = .endOfInput offset →
          stop.offset < offset ∧ offset ≤ stop.offset + 4 ∧
          offset ≤ bytes.length ∧ bytes.length ≤ offset + 1) := by
  obtain ⟨segments, rest, rfl, hend⟩ := exists_segments bytes
  obtain ⟨htwo, hsix⟩ := length_flatten_bounds segments
  refine ⟨place 0 segments, offset_head_place, isChain_place 0 segments,
    fun item hitem => Placed.liesIn_of_mem hitem rest, ?_⟩
  rw [total_place, length_place]
  rcases hend with rfl | ⟨cause, hfault⟩
  · left
    rw [List.append_nil]
    exact ⟨items_flatten segments, rfl, htwo, hsix⟩
  · right
    have hpos := List.length_pos_iff.mpr hfault.1
    refine ⟨_, items_faulty segments hfault, rfl, rfl, htwo, hsix, ?_, ?_⟩
    · rw [List.length_append]
      exact Nat.lt_add_of_pos_right hpos
    · rintro offset rfl
      obtain ⟨hrest, later, hread⟩ := hfault
      have hbounds := Instruction.endOfInput_bounds hrest hread
      rw [List.length_append]
      exact hbounds

theorem items_tile_move :
    (ofBytes [0xB0, 0x05, 0x89]).items = [.ok ⟨0, 2, .movImmediate ⟨0, .byte⟩ 5 .byte⟩,
      .error ⟨1, 2, .endOfInput 3⟩] ∧
    Placed.LiesIn ⟨0, 2, .movImmediate ⟨0, .byte⟩ 5 .byte⟩ [0xB0, 0x05, 0x89] := by
  have hmove : Instruction.Encodes (.movImmediate ⟨0, .byte⟩ 5 .byte) [0xB0, 0x05] := by decide
  have hitems : (ofBytes [0xB0, 0x05, 0x89]).items =
      [.ok ⟨0, 2, .movImmediate ⟨0, .byte⟩ 5 .byte⟩, .error ⟨1, 2, .endOfInput 3⟩] :=
    @items_faulty [⟨_, _, hmove⟩] [0x89] _ ⟨by decide, _, rfl⟩
  have hmem : Except.ok ⟨0, 2, .movImmediate ⟨0, .byte⟩ 5 .byte⟩ ∈
      (ofBytes [0xB0, 0x05, 0x89]).items := by
    rw [hitems]
    exact List.mem_cons_self
  refine ⟨hitems, ?_⟩
  obtain ⟨placed, -, -, hlies, ⟨htiles, -⟩ | ⟨stop, htiles, -⟩⟩ :=
    items_tile [0xB0, 0x05, 0x89]
  · rw [htiles] at hmem
    exact hlies _ (by simpa using hmem)
  · rw [htiles] at hmem
    exact hlies _ (by simpa using hmem)

end Sweep

end Disasm8086
