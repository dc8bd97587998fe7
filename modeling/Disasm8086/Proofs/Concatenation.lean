import Disasm8086.Proofs.Factorization
import Disasm8086.Proofs.Locality

/-!
# Buffers put together

A buffer behind one that has a listing is read as if it stood alone. Its lines follow the lines of
the first buffer; its fault is counted and placed behind the first buffer. So a buffer that is
repeated has its lines as often as it is repeated.
-/
namespace Disasm8086

open Read Segment

theorem Faulty.shift {position : Nat} {rest : List UInt8} {cause : Fault}
    (h : Faulty position rest cause) (distance : Nat) :
    Faulty (distance + position) rest (cause.shift distance) := by
  obtain ⟨hrest, later, hread⟩ := h
  have hshift := Instruction.stepwise_read.shift distance ⟨position, rest⟩
  rw [hread] at hshift
  exact ⟨hrest, _, hshift⟩

/-- The stop of the same bytes when `count` instructions of `distance` bytes stand in front. -/
def Stop.shift (count distance : Nat) (stop : Stop) : Stop :=
  ⟨count + stop.index, distance + stop.offset, stop.cause.shift distance⟩

@[simp] theorem Stop.shift_zero (stop : Stop) : stop.shift 0 0 = stop := by
  simp [shift]

theorem Stop.shift_shift (stop : Stop) (count count' distance distance' : Nat) :
    (stop.shift count distance).shift count' distance' =
      stop.shift (count' + count) (distance' + distance) := by
  simp [shift, Fault.shift_shift, Nat.add_assoc]

namespace Listing

/-- The lines of a run of instructions, without the header. -/
def body (segments : List Segment) : String :=
  String.join ((segments.map Segment.instruction).map fun instruction => instruction.text ++ "\n")

theorem body_append (before after : List Segment) :
    body (before ++ after) = body before ++ body after := by
  simp [body]

theorem disassemble_flatten_eq_body (segments : List Segment) :
    disassemble (flatten segments) = .ok (header ++ body segments) := by
  rw [disassemble_flatten, ofInstructions_place]
  rfl

theorem exists_body {bytes : List UInt8} {text : String} (h : disassemble bytes = .ok text) :
    ∃ segments, bytes = flatten segments ∧ text = header ++ body segments := by
  obtain ⟨segments, rfl⟩ := exists_disassemble_eq_ok_iff.mp ⟨text, h⟩
  rw [disassemble_flatten_eq_body] at h
  cases h
  exact ⟨segments, rfl, rfl⟩

section

variable {front back : List UInt8} {rows rows' : String}

/-- Listings are put together by their lines. -/
theorem disassemble_append_of_ok (hfront : disassemble front = .ok (header ++ rows))
    (hback : disassemble back = .ok (header ++ rows')) :
    disassemble (front ++ back) = .ok (header ++ (rows ++ rows')) := by
  obtain ⟨before, rfl, hbefore⟩ := exists_body hfront
  obtain ⟨after, rfl, hafter⟩ := exists_body hback
  rw [← flatten_append, disassemble_flatten_eq_body, body_append]
  rw [String.append_right_inj] at hbefore hafter
  rw [hbefore, hafter]

theorem disassemble_append_of_error {stop : Stop}
    (hfront : disassemble front = .ok (header ++ rows))
    (hback : disassemble back = .error stop) : disassemble (front ++ back) =
      .error (stop.shift (Sweep.found front).length front.length) := by
  obtain ⟨before, rfl, -⟩ := exists_body hfront
  obtain ⟨after, rest, rfl, hfault, hindex, hoffset⟩ := disassemble_eq_error_iff.mp hback
  rw [← List.append_assoc, ← flatten_append, Sweep.found_flatten, length_place]
  apply disassemble_eq_error_iff.mpr
  refine ⟨before ++ after, rest, rfl, ?_, ?_, ?_⟩
  · rw [flatten_append, List.length_append]
    exact hfault.shift _
  · rw [List.length_append, ← hindex]
    rfl
  · rw [flatten_append, List.length_append, ← hoffset]
    rfl

theorem disassemble_replicate_append_of_ok (hfront : disassemble front = .ok (header ++ rows))
    (hback : disassemble back = .ok (header ++ rows')) (r : Nat) :
    disassemble ((List.replicate r front).flatten ++ back) =
      .ok (header ++ (String.join (List.replicate r rows) ++ rows')) := by
  induction r with
  | zero => simpa using hback
  | succ r ih =>
    have h := disassemble_append_of_ok hfront ih
    simpa [List.replicate_succ, String.append_assoc] using h

theorem disassemble_replicate_append_of_error {stop : Stop}
    (hfront : disassemble front = .ok (header ++ rows))
    (hback : disassemble back = .error stop) (r : Nat) :
    disassemble ((List.replicate r front).flatten ++ back) =
      .error (stop.shift (r * (Sweep.found front).length) (r * front.length)) := by
  induction r with
  | zero => simpa using hback
  | succ r ih =>
    have h := disassemble_append_of_error hfront ih
    have hmul (n : Nat) : n + r * n = (r + 1) * n := by rw [Nat.succ_mul, Nat.add_comm]
    rw [Stop.shift_shift, hmul, hmul] at h
    simpa [List.replicate_succ] using h

end

/-- Behind a buffer that has a listing, any number of times, another buffer is read as it is alone.
If it has a listing, its lines stand behind those of the copies. If it has none, the index of its
fault counts the instructions of the copies, and offsets count their bytes. -/
theorem listings_of_repetitions (front : List UInt8) (text : String)
    (h : disassemble front = .ok text) :
    ∃ rows, text = header ++ rows ∧ ∀ back,
      (∀ text', disassemble back = .ok text' → ∃ rows', text' = header ++ rows' ∧
        disassemble (front ++ back) = .ok (text ++ rows') ∧
        ∀ r, disassemble ((List.replicate r front).flatten ++ back) =
          .ok (header ++ (String.join (List.replicate r rows) ++ rows'))) ∧
      ∀ stop, disassemble back = .error stop →
        disassemble (front ++ back) = .error ⟨(Sweep.found front).length + stop.index,
          front.length + stop.offset, stop.cause.shift front.length⟩ ∧
        ∀ r, disassemble ((List.replicate r front).flatten ++ back) =
          .error ⟨r * (Sweep.found front).length + stop.index, r * front.length + stop.offset,
            stop.cause.shift (r * front.length)⟩ := by
  obtain ⟨segments, -, rfl⟩ := exists_body h
  refine ⟨body segments, rfl, fun back => ⟨?_, ?_⟩⟩
  · intro text' hback
    obtain ⟨segments', -, rfl⟩ := exists_body hback
    refine ⟨body segments', rfl, ?_, disassemble_replicate_append_of_ok h hback⟩
    rw [String.append_assoc]
    exact disassemble_append_of_ok h hback
  · intro stop hback
    exact ⟨disassemble_append_of_error h hback, disassemble_replicate_append_of_error h hback⟩

theorem listings_of_repetitions_move :
    disassemble [0xB0, 0x05] = .ok "bits 16\n\nmov al, 5\n" ∧
      disassemble [0x89] = .error ⟨0, 0, .endOfInput 1⟩ ∧
      ∀ r, disassemble ((List.replicate r [0xB0, 0x05]).flatten ++ [0x89]) =
        .error ⟨r * 1 + 0, r * 2 + 0, .endOfInput (r * 2 + 1)⟩ := by
  have hmove : Instruction.Encodes (.movImmediate ⟨0, .byte⟩ 5 .byte) [0xB0, 0x05] := by decide
  have hfront : disassemble [0xB0, 0x05] = .ok "bits 16\n\nmov al, 5\n" :=
    disassemble_flatten [⟨_, _, hmove⟩]
  have hback : disassemble [0x89] = .error ⟨0, 0, .endOfInput 1⟩ :=
    @disassemble_faulty [] [0x89] _ ⟨by decide, _, rfl⟩
  have hfound : Sweep.found [0xB0, 0x05] = place 0 [⟨_, _, hmove⟩] :=
    Sweep.found_flatten [⟨_, _, hmove⟩]
  refine ⟨hfront, hback, fun r => ?_⟩
  obtain ⟨_, -, h⟩ := listings_of_repetitions _ _ hfront
  have herror := ((h [0x89]).2 _ hback).2 r
  rw [hfound] at herror
  exact herror

end Listing

end Disasm8086
