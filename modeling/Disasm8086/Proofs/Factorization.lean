import Disasm8086.Proofs.Lines
import Disasm8086.Proofs.Segments

/-!
# The language of buffers with a listing

A buffer has a listing exactly if it is put together from byte strings that are read as one
instruction each. No such byte string begins another, so a buffer is put together in one way, and
the listing shows its parts line by line.
-/
namespace Disasm8086

/-- Reading a byte string from its first byte gives the instruction and leaves no byte. -/
def Instruction.Spans (instruction : Instruction) (bytes : List UInt8) : Prop :=
  ∃ later, Instruction.read (.ofBytes bytes) = .ok instruction later ∧ later.rest = []

theorem Instruction.spans_iff_encodes {instruction : Instruction} {bytes : List UInt8} :
    instruction.Spans bytes ↔ instruction.Encodes bytes := by
  constructor
  · intro h
    obtain ⟨later, hread, hlater⟩ := h
    obtain ⟨taken, htaken, hrest, -⟩ := (accepts_read _ _ _).mp hread
    rw [hlater, List.append_nil] at hrest
    change bytes = taken at hrest
    rw [hrest]
    exact htaken
  · intro h
    have hread := accepts_read.run h 0 []
    rw [List.append_nil] at hread
    exact ⟨_, hread, rfl⟩

/-- A byte string that is read as one instruction. -/
def IsEncoding (bytes : List UInt8) : Prop :=
  ∃ instruction : Instruction, instruction.Spans bytes

/-- The buffer is the encodings of `factors`, one behind the other. -/
def Factors (bytes : List UInt8) (factors : List (List UInt8)) : Prop :=
  (∀ factor ∈ factors, IsEncoding factor) ∧ factors.flatten = bytes

theorem Segment.isEncoding (segment : Segment) : IsEncoding segment.bytes :=
  ⟨segment.instruction, Instruction.spans_iff_encodes.mpr segment.encodes⟩

theorem IsEncoding.exists_segment {bytes : List UInt8} (h : IsEncoding bytes) :
    ∃ segment : Segment, segment.bytes = bytes := by
  obtain ⟨instruction, hspans⟩ := h
  exact ⟨⟨instruction, bytes, Instruction.spans_iff_encodes.mp hspans⟩, rfl⟩

/-- The begin of a text tells where the encoding in front of it ends. -/
theorem IsEncoding.append_inj {bytes bytes' rest rest' : List UInt8} (h : IsEncoding bytes)
    (h' : IsEncoding bytes') (he : bytes ++ rest = bytes' ++ rest') :
    bytes = bytes' ∧ rest = rest' := by
  obtain ⟨instruction, hspans⟩ := h
  obtain ⟨instruction', hspans'⟩ := h'
  exact (Instruction.accepts_read.unique (Instruction.spans_iff_encodes.mp hspans)
    (Instruction.spans_iff_encodes.mp hspans') he).2

theorem IsEncoding.eq_of_prefix {bytes bytes' : List UInt8} (h : IsEncoding bytes)
    (h' : IsEncoding bytes') (hp : bytes <+: bytes') : bytes = bytes' := by
  obtain ⟨rest, hrest⟩ := hp
  rw [← List.append_nil bytes'] at hrest
  exact (h.append_inj h' hrest).1

theorem IsEncoding.ne_nil {bytes : List UInt8} (h : IsEncoding bytes) : bytes ≠ [] := by
  obtain ⟨segment, rfl⟩ := h.exists_segment
  exact segment.bytes_ne_nil

namespace Factors

variable {bytes : List UInt8} {factors factors' : List (List UInt8)}

theorem unique (h : Factors bytes factors) (h' : Factors bytes factors') : factors = factors' := by
  obtain ⟨h, rfl⟩ := h
  obtain ⟨h', he⟩ := h'
  induction factors generalizing factors' with
  | nil =>
    cases factors' with
    | nil => rfl
    | cons first' factors' =>
      rw [List.flatten_nil, List.flatten_cons, List.append_eq_nil_iff] at he
      exact absurd he.1 (h' first' List.mem_cons_self).ne_nil
  | cons first factors ih =>
    cases factors' with
    | nil =>
      rw [List.flatten_nil, List.flatten_cons, eq_comm, List.append_eq_nil_iff] at he
      exact absurd he.1 (h first List.mem_cons_self).ne_nil
    | cons first' factors' =>
      rw [List.forall_mem_cons] at h h'
      rw [List.flatten_cons, List.flatten_cons] at he
      obtain ⟨hfirst, hrest⟩ := h'.1.append_inj h.1 he
      rw [hfirst, ih h.2 h'.2 hrest]

theorem exists_segments (h : Factors bytes factors) :
    ∃ segments : List Segment, factors = segments.map Segment.bytes := by
  obtain ⟨h, -⟩ := h
  induction factors with
  | nil => exact ⟨[], rfl⟩
  | cons first factors ih =>
    rw [List.forall_mem_cons] at h
    obtain ⟨segment, hsegment⟩ := h.1.exists_segment
    obtain ⟨segments, hsegments⟩ := ih h.2
    exact ⟨segment :: segments, by rw [hsegments, List.map_cons, hsegment]⟩

theorem of_segments (segments : List Segment) :
    Factors (Segment.flatten segments) (segments.map Segment.bytes) := by
  constructor
  · intro factor hfactor
    obtain ⟨segment, -, rfl⟩ := List.mem_map.mp hfactor
    exact segment.isEncoding
  · rw [Segment.flatten, List.flatMap_def]

end Factors

namespace Listing

theorem exists_disassemble_eq_ok_iff_factors {bytes : List UInt8} :
    (∃ text, disassemble bytes = .ok text) ↔ ∃ factors, Factors bytes factors := by
  rw [exists_disassemble_eq_ok_iff]
  constructor
  · intro h
    obtain ⟨segments, rfl⟩ := h
    exact ⟨_, Factors.of_segments segments⟩
  · intro h
    obtain ⟨factors, hfactors⟩ := h
    obtain ⟨segments, rfl⟩ := hfactors.exists_segments
    exact ⟨segments, hfactors.2.symm⟩

theorem ofInstructions_place (segments : List Segment) :
    ofInstructions (Segment.place 0 segments) = "bits 16\n\n" ++
      String.join ((segments.map Segment.instruction).map fun instruction =>
        instruction.text ++ "\n") := by
  rw [ofInstructions, ← Segment.map_instruction_place 0 segments, List.map_map]
  rfl

/-- The buffers that have a listing are those made up of encodings. An encoding does not begin
another one, a buffer is made up of encodings in one way only, and its listing is the header with
one line for each of them. -/
theorem listings_of_encodings :
    (∀ short long, IsEncoding short → IsEncoding long → short <+: long → short = long) ∧
    ∀ bytes,
      ((∃ text, disassemble bytes = .ok text) ↔ ∃ factors, Factors bytes factors) ∧
      (∀ factors factors', Factors bytes factors → Factors bytes factors' → factors = factors') ∧
      ∀ factors, Factors bytes factors → ∃ instructions text,
        List.Forall₂ Instruction.Spans instructions factors ∧
        text = "bits 16\n\n" ++ String.join (instructions.map fun i => i.text ++ "\n") ∧
        disassemble bytes = .ok text ∧
        (∀ i ∈ instructions, '\n' ∉ i.text.toList) ∧
        lines text = "bits 16" :: "" :: instructions.map Instruction.text ∧
        (lines text).length = 2 + factors.length := by
  refine ⟨fun short long h h' hp => h.eq_of_prefix h' hp, fun bytes =>
    ⟨exists_disassemble_eq_ok_iff_factors, fun factors factors' h h' => h.unique h', ?_⟩⟩
  intro factors hfactors
  obtain ⟨segments, rfl⟩ := hfactors.exists_segments
  have hbytes : Segment.flatten segments = bytes := hfactors.2
  have hlines := lines_ofInstructions (Segment.place 0 segments)
  have htexts : (segments.map Segment.instruction).map Instruction.text =
      segments.map fun segment => segment.instruction.text := List.map_map
  rw [Segment.map_text_place, ← htexts] at hlines
  refine ⟨segments.map Segment.instruction, ofInstructions (Segment.place 0 segments), ?_,
    ofInstructions_place segments, ?_, ?_, hlines, ?_⟩
  · rw [List.forall₂_map_left_iff, List.forall₂_map_right_iff, List.forall₂_same]
    exact fun segment _ => Instruction.spans_iff_encodes.mpr segment.encodes
  · rw [← hbytes]
    exact disassemble_flatten segments
  · exact fun i _ => i.newline_not_mem_text
  · rw [hlines]
    simp only [List.length_cons, List.length_map]
    omega

theorem listings_of_encodings_moves :
    Factors [0x89, 0xD9, 0xB8, 0x01, 0x00] [[0x89, 0xD9], [0xB8, 0x01, 0x00]] ∧
      ∃ text, disassemble [0x89, 0xD9, 0xB8, 0x01, 0x00] = .ok text ∧
        (lines text).length = 4 := by
  have hfactors : Factors [0x89, 0xD9, 0xB8, 0x01, 0x00] [[0x89, 0xD9], [0xB8, 0x01, 0x00]] := by
    constructor
    · rw [List.forall_mem_cons, List.forall_mem_singleton]
      exact ⟨⟨_, _, rfl, rfl⟩, ⟨_, _, rfl, rfl⟩⟩
    · rfl
  refine ⟨hfactors, ?_⟩
  obtain ⟨_, text, -, -, htext, -, -, hlength⟩ :=
    (listings_of_encodings.2 _).2.2 _ hfactors
  exact ⟨text, htext, hlength⟩

end Listing

end Disasm8086
