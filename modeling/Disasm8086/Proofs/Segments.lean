import Disasm8086.Listing
import Disasm8086.Proofs.Reading

/-!
# Buffers as runs of instructions

Every buffer is a run of instruction encodings followed by bytes that hold no further one: by
none at all, or by bytes at which reading meets a fault. A sweep finds the run and the fault, and
the listing is that of the run.
-/
namespace Disasm8086

/-- An instruction with the bytes it is written as. -/
structure Segment where
  instruction : Instruction
  bytes : List UInt8
  encodes : instruction.Encodes bytes

namespace Segment

/-- The bytes of a run of instructions. -/
def flatten (segments : List Segment) : List UInt8 :=
  segments.flatMap bytes

@[simp] theorem flatten_nil : flatten [] = [] := rfl
@[simp] theorem flatten_cons (segment : Segment) (segments : List Segment) :
    flatten (segment :: segments) = segment.bytes ++ flatten segments := rfl
@[simp] theorem flatten_append (before after : List Segment) :
    flatten (before ++ after) = flatten before ++ flatten after := by
  simp [flatten]

/-- The instructions of a run with their places, from a position on. -/
def place (position : Nat) : List Segment → List Placed
  | [] => []
  | segment :: segments =>
    ⟨position, .ofNat segment.bytes.length, segment.instruction⟩ ::
      place (position + segment.bytes.length) segments

@[simp] theorem length_place (position : Nat) (segments : List Segment) :
    (place position segments).length = segments.length := by
  induction segments generalizing position with
  | nil => rfl
  | cons segment segments ih => simp [place, ih]

theorem place_append (position : Nat) (before after : List Segment) :
    place position (before ++ after) =
      place position before ++ place (position + (flatten before).length) after := by
  induction before generalizing position with
  | nil => rfl
  | cons segment before ih => simp [place, ih, Nat.add_assoc]

theorem map_instruction_place (position : Nat) (segments : List Segment) :
    (place position segments).map Placed.instruction = segments.map instruction := by
  induction segments generalizing position with
  | nil => rfl
  | cons segment segments ih => simp [place, ih]

theorem map_text_place (position : Nat) (segments : List Segment) :
    (place position segments).map (fun item => item.instruction.text) =
      segments.map fun segment => segment.instruction.text := by
  have h := congrArg (List.map Instruction.text) (map_instruction_place position segments)
  rw [List.map_map, List.map_map] at h
  exact h

theorem read_append (segment : Segment) (position : Nat) (rest : List UInt8) :
    Instruction.read ⟨position, segment.bytes ++ rest⟩ =
      .ok segment.instruction ⟨position + segment.bytes.length, rest⟩ :=
  Instruction.accepts_read.run segment.encodes position rest

theorem length_bytes (segment : Segment) :
    2 ≤ segment.bytes.length ∧ segment.bytes.length ≤ 6 :=
  segment.encodes.length_bounds

theorem bytes_ne_nil (segment : Segment) : segment.bytes ≠ [] := by
  have h := segment.length_bytes
  exact List.length_pos_iff.mp (by omega)

/-- The size that is kept beside an instruction is the length of its bytes. -/
theorem toNat_size (segment : Segment) :
    (UInt8.ofNat segment.bytes.length).toNat = segment.bytes.length := by
  have h := segment.length_bytes
  exact UInt8.toNat_ofNat_of_lt' (by change _ < 256; omega)

/-- The instructions of a run lie behind its begin and inside its bytes. -/
theorem offset_bounds {position : Nat} {segments : List Segment} {item : Placed}
    (h : item ∈ place position segments) :
    position ≤ item.offset ∧ item.nextOffset ≤ position + (flatten segments).length := by
  induction segments generalizing position with
  | nil => cases h
  | cons segment segments ih =>
    rw [flatten_cons, List.length_append]
    cases h with
    | head =>
      simp only [Placed.nextOffset, segment.toNat_size]
      omega
    | tail _ h =>
      have hrest := ih h
      omega

theorem offset_lt_nextOffset {position : Nat} {segments : List Segment} {item : Placed}
    (h : item ∈ place position segments) : item.offset < item.nextOffset := by
  induction segments generalizing position with
  | nil => cases h
  | cons segment segments ih =>
    cases h with
    | head =>
      have hlength := segment.length_bytes
      simp only [Placed.nextOffset, segment.toNat_size]
      omega
    | tail _ h => exact ih h

/-- A run ends at its begin, or behind one of its instructions. -/
theorem end_mem_boundaries (position : Nat) (segments : List Segment) :
    position + (flatten segments).length ∈
      position :: (place position segments).map Placed.nextOffset := by
  induction segments generalizing position with
  | nil => exact List.mem_cons_self
  | cons segment segments ih =>
    have h := ih (position + segment.bytes.length)
    apply List.mem_cons_of_mem
    rw [flatten_cons, List.length_append, ← Nat.add_assoc, place, List.map_cons,
      Placed.nextOffset, segment.toNat_size]
    exact h

end Segment

open Segment

namespace Sweep

/-- A sweep that goes on at a position of the buffer, behind `index` instructions. -/
def running (position index : Nat) (rest : List UInt8) : Sweep :=
  ⟨⟨position, rest⟩, index, false⟩

theorem next_running_nil (position index : Nat) :
    (running position index []).next = (none, running position index []) := rfl

theorem next_running_segment (segment : Segment) (position index : Nat) (rest : List UInt8) :
    (running position index (segment.bytes ++ rest)).next =
      (some (.ok ⟨position, .ofNat segment.bytes.length, segment.instruction⟩),
        running (position + segment.bytes.length) (index + 1) rest) := by
  have hmore : Reader.hasMore ⟨position, segment.bytes ++ rest⟩ := by
    simp [Reader.hasMore, segment.bytes_ne_nil]
  have hnext := next_of_ok hmore (segment.read_append position rest) index
  rwa [Nat.add_sub_cancel_left] at hnext

theorem next_running_fault {position : Nat} {rest : List UInt8} {cause : Fault} {later : Reader}
    (hrest : rest ≠ []) (h : Instruction.read ⟨position, rest⟩ = .error cause later)
    (index : Nat) : (running position index rest).next =
      (some (.error ⟨index, position, cause⟩), ⟨later, index, true⟩) := by
  have hmore : Reader.hasMore ⟨position, rest⟩ := by simp [Reader.hasMore, hrest]
  exact next_of_error hmore h index

theorem items_running_nil (position index : Nat) : (running position index []).items = [] :=
  items_of_next_none (next_running_nil position index)

theorem items_running_segment (segment : Segment) (position index : Nat) (rest : List UInt8) :
    (running position index (segment.bytes ++ rest)).items =
      .ok ⟨position, .ofNat segment.bytes.length, segment.instruction⟩ ::
        (running (position + segment.bytes.length) (index + 1) rest).items :=
  items_of_next_some (next_running_segment segment position index rest)

theorem items_running_fault {position : Nat} {rest : List UInt8} {cause : Fault} {later : Reader}
    (hrest : rest ≠ []) (h : Instruction.read ⟨position, rest⟩ = .error cause later)
    (index : Nat) : (running position index rest).items = [.error ⟨index, position, cause⟩] := by
  rw [items_of_next_some (next_running_fault hrest h index),
    items_of_next_none (next_of_failed later index)]

/-- A sweep finds the instructions of a run, then what is behind the run. -/
theorem items_running_flatten (segments : List Segment) (position index : Nat)
    (rest : List UInt8) :
    (running position index (flatten segments ++ rest)).items =
      (place position segments).map .ok ++
        (running (position + (flatten segments).length) (index + segments.length) rest).items := by
  induction segments generalizing position index with
  | nil => simp [place]
  | cons segment segments ih =>
    rw [flatten_cons, List.append_assoc, items_running_segment, ih]
    simp [place, Nat.add_assoc, Nat.add_comm 1]

end Sweep

/-- Reading the bytes behind a run meets a fault. -/
def Faulty (position : Nat) (rest : List UInt8) (cause : Fault) : Prop :=
  rest ≠ [] ∧ ∃ later, Instruction.read ⟨position, rest⟩ = .error cause later

/-- No further instruction begins here: there are no bytes left, or reading them meets a fault. -/
def Ends (position : Nat) (rest : List UInt8) : Prop :=
  rest = [] ∨ ∃ cause, Faulty position rest cause

theorem exists_segments_from (position : Nat) (bytes : List UInt8) :
    ∃ segments rest, bytes = flatten segments ++ rest ∧
      Ends (position + (flatten segments).length) rest := by
  induction hn : bytes.length using Nat.strongRecOn generalizing bytes position with
  | _ n ih =>
    subst hn
    by_cases hbytes : bytes = []
    · exact ⟨[], [], hbytes, .inl rfl⟩
    cases hread : Instruction.read ⟨position, bytes⟩ with
    | error cause later => exact ⟨[], bytes, rfl, .inr ⟨cause, hbytes, later, hread⟩⟩
    | ok instruction later =>
      have hlt := Instruction.read_shortens hread
      obtain ⟨taken, hencodes, htaken, -⟩ := (Instruction.accepts_read _ _ _).mp hread
      simp only at htaken hlt
      obtain ⟨segments, rest, hrest, hend⟩ :=
        ih later.rest.length hlt (position + taken.length) later.rest rfl
      refine ⟨⟨instruction, taken, hencodes⟩ :: segments, rest, ?_, ?_⟩
      · rw [htaken, hrest, flatten_cons, List.append_assoc]
      · rw [flatten_cons, List.length_append, ← Nat.add_assoc]
        exact hend

/-- Every buffer is a run of instructions and bytes that hold no further one. -/
theorem exists_segments (bytes : List UInt8) : ∃ segments rest,
    bytes = flatten segments ++ rest ∧ Ends (flatten segments).length rest := by
  obtain ⟨segments, rest, hbytes, hend⟩ := exists_segments_from 0 bytes
  rw [Nat.zero_add] at hend
  exact ⟨segments, rest, hbytes, hend⟩

theorem filterMap_toOption_map_ok {ε α : Type} (items : List α) :
    (items.map Except.ok).filterMap (@Except.toOption ε α) = items := by
  rw [List.filterMap_map]
  exact List.filterMap_some

/-- The instructions that a sweep of a buffer finds. -/
def Sweep.found (bytes : List UInt8) : List Placed :=
  (ofBytes bytes).items.filterMap Except.toOption

/-- A sweep of a run finds the instructions of the run. -/
theorem Sweep.items_flatten (segments : List Segment) :
    (ofBytes (flatten segments)).items = (place 0 segments).map .ok := by
  have hitems := items_running_flatten segments 0 0 []
  rw [List.append_nil, items_running_nil, List.append_nil] at hitems
  exact hitems

/-- A fault behind a run is found after its instructions, and is the last thing found. -/
theorem Sweep.items_faulty (segments : List Segment) {rest : List UInt8} {cause : Fault}
    (h : Faulty (flatten segments).length rest cause) :
    (ofBytes (flatten segments ++ rest)).items = (place 0 segments).map .ok ++
      [.error ⟨segments.length, (flatten segments).length, cause⟩] := by
  obtain ⟨hrest, later, hread⟩ := h
  have hitems := items_running_flatten segments 0 0 rest
  rw [Nat.zero_add, Nat.zero_add, items_running_fault hrest hread] at hitems
  exact hitems

theorem Sweep.found_flatten_append (segments : List Segment) {rest : List UInt8}
    (h : Ends (flatten segments).length rest) :
    found (flatten segments ++ rest) = place 0 segments := by
  rcases h with rfl | ⟨cause, hfault⟩
  · rw [found, List.append_nil, items_flatten, filterMap_toOption_map_ok]
  · rw [found, items_faulty segments hfault, List.filterMap_append, filterMap_toOption_map_ok]
    exact List.append_nil _

theorem Sweep.found_flatten (segments : List Segment) :
    found (flatten segments) = place 0 segments := by
  have h := found_flatten_append segments (.inl rfl)
  rw [List.append_nil] at h
  exact h

namespace Listing

theorem instructions_nil : instructions [] = .ok [] := rfl

theorem instructions_error_cons (stop : Stop) (items : List (Except Stop Placed)) :
    instructions (.error stop :: items) = .error stop := by
  unfold instructions
  rw [List.mapM_cons]
  rfl

theorem instructions_ok_cons (placed : Placed) (items : List (Except Stop Placed)) :
    instructions (.ok placed :: items) = (instructions items).map (placed :: ·) := by
  unfold instructions
  rw [List.mapM_cons]
  cases items.mapM id <;> rfl

theorem instructions_map_ok (placed : List Placed) (items : List (Except Stop Placed)) :
    instructions (placed.map .ok ++ items) = (instructions items).map (placed ++ ·) := by
  induction placed with
  | nil =>
    change instructions items = (instructions items).map ([] ++ ·)
    cases instructions items <;> rfl
  | cons first placed ih =>
    rw [List.map_cons, List.cons_append, instructions_ok_cons, ih]
    cases instructions items <;> rfl

/-- The listing of a run of instructions has a line for each of them. -/
theorem disassemble_flatten (segments : List Segment) :
    disassemble (flatten segments) = .ok (ofInstructions (place 0 segments)) := by
  have h := instructions_map_ok (place 0 segments) []
  rw [List.append_nil, instructions_nil] at h
  rw [disassemble, Sweep.items_flatten, h]
  simp only [Except.map, List.append_nil]

/-- A fault behind a run of instructions is placed behind it and counted after it. -/
theorem disassemble_faulty (segments : List Segment) {rest : List UInt8} {cause : Fault}
    (h : Faulty (flatten segments).length rest cause) :
    disassemble (flatten segments ++ rest) =
      .error ⟨segments.length, (flatten segments).length, cause⟩ := by
  rw [disassemble, Sweep.items_faulty segments h, instructions_map_ok, instructions_error_cons]
  rfl

/-- A buffer has no listing exactly if it is a run of instructions and bytes that are a fault. -/
theorem disassemble_eq_error_iff {bytes : List UInt8} {stop : Stop} :
    disassemble bytes = .error stop ↔ ∃ segments rest, bytes = flatten segments ++ rest ∧
      Faulty (flatten segments).length rest stop.cause ∧
      stop.index = segments.length ∧ stop.offset = (flatten segments).length := by
  constructor
  · intro h
    obtain ⟨segments, rest, rfl, rfl | ⟨cause, hfault⟩⟩ := exists_segments bytes
    · rw [List.append_nil, disassemble_flatten] at h
      cases h
    · rw [disassemble_faulty segments hfault] at h
      cases h
      exact ⟨segments, rest, rfl, hfault, rfl, rfl⟩
  · intro h
    obtain ⟨segments, rest, rfl, hfault, hindex, hoffset⟩ := h
    rw [disassemble_faulty segments hfault, ← hindex, ← hoffset]

/-- A buffer has a listing exactly if it is a run of instructions and nothing else. -/
theorem exists_disassemble_eq_ok_iff {bytes : List UInt8} :
    (∃ text, disassemble bytes = .ok text) ↔ ∃ segments, bytes = flatten segments := by
  constructor
  · intro h
    obtain ⟨text, htext⟩ := h
    obtain ⟨segments, rest, rfl, hend⟩ := exists_segments bytes
    cases hend with
    | inl hrest => exact ⟨segments, by rw [hrest, List.append_nil]⟩
    | inr hfault =>
      obtain ⟨cause, hfault⟩ := hfault
      rw [disassemble_faulty segments hfault] at htext
      cases htext
  · intro h
    obtain ⟨segments, rfl⟩ := h
    exact ⟨_, disassemble_flatten segments⟩

end Listing

end Disasm8086
