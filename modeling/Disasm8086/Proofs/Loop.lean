import Disasm8086.Proofs.Pool
import Disasm8086.Proofs.Segments

/-!
# Sweeps and the plain loop

The plain loop over a buffer reads one instruction after the other while there are bytes, and notes
each of them, or the fault that ends it. A sweep gives what the loop noted, from the first item to
the last and then nothing, however its uses and those of its copies are mixed; and the listing is
made of what the loop noted.
-/
namespace Disasm8086

open Read

/-- What the loop notes of an instruction: where it begins and how many bytes it took. -/
structure Taken where
  offset : Nat
  length : Nat
  instruction : Instruction
  deriving DecidableEq, Repr

/-- The note that an item of a sweep stands for. -/
def Placed.taken (placed : Placed) : Taken :=
  ⟨placed.offset, placed.size.toNat, placed.instruction⟩

/-- The bytes that instructions took. -/
def Taken.total : List Taken → Nat
  | [] => 0
  | note :: notes => note.length + total notes

theorem Taken.total_append (front : List Taken) (last : Taken) :
    total (front ++ [last]) = total front + last.length := by
  induction front with
  | nil => simp [total]
  | cons note front ih => simp [total, ih, Nat.add_assoc]

namespace Reader

/-- Reads instructions while there are bytes, behind `count` others, up to the first fault. -/
def loop (reader : Reader) (count : Nat) : List (Except Stop Taken) :=
  if reader.hasMore then
    match _h : Instruction.read reader with
    | .ok instruction later =>
      .ok ⟨reader.position, later.position - reader.position, instruction⟩ ::
        later.loop (count + 1)
    | .error cause _ => [.error ⟨count, reader.position, cause⟩]
  else []
termination_by reader.rest.length
decreasing_by exact Instruction.read_shortens _h

variable {reader later : Reader}

theorem loop_of_not_hasMore (h : reader.hasMore = false) (count : Nat) :
    reader.loop count = [] := by
  rw [loop]
  simp [h]

theorem loop_of_ok {instruction : Instruction} (hmore : reader.hasMore)
    (hread : Instruction.read reader = .ok instruction later) (count : Nat) :
    reader.loop count =
      .ok ⟨reader.position, later.position - reader.position, instruction⟩ ::
        later.loop (count + 1) := by
  rw [loop]
  simp only [hmore, if_true]
  split <;> simp_all

theorem loop_of_error {cause : Fault} (hmore : reader.hasMore)
    (hread : Instruction.read reader = .error cause later) (count : Nat) :
    reader.loop count = [.error ⟨count, reader.position, cause⟩] := by
  rw [loop]
  simp only [hmore, if_true]
  split <;> simp_all

theorem loop_ne_nil (hmore : reader.hasMore) (count : Nat) : reader.loop count ≠ [] := by
  cases hread : Instruction.read reader with
  | ok instruction later => simp [loop_of_ok hmore hread]
  | error cause later => simp [loop_of_error hmore hread]

/-- The reader of a buffer behind the bytes that instructions took. -/
def behind (bytes : List UInt8) (taken : List Taken) : Reader :=
  ⟨Taken.total taken, bytes.drop (Taken.total taken)⟩

theorem behind_append (bytes : List UInt8) (taken : List Taken) (last : Taken) :
    behind bytes (taken ++ [last]) = ⟨(behind bytes taken).position + last.length,
      (behind bytes taken).rest.drop last.length⟩ := by
  simp [behind, Taken.total_append]

end Reader

/-- A success takes its bytes from the front, and their number fits a byte. -/
theorem Instruction.exists_length_of_read {reader later : Reader} {instruction : Instruction}
    (h : read reader = .ok instruction later) :
    ∃ n, n < 256 ∧ later = ⟨reader.position + n, reader.rest.drop n⟩ := by
  obtain ⟨bytes, hencodes, hrest, hposition⟩ := (accepts_read reader later _).mp h
  have hlength := hencodes.length_bounds
  refine ⟨bytes.length, by omega, ?_⟩
  rw [hrest, List.drop_left, ← hposition]

/-- A read behind some instructions leaves the reader behind one more, whose length fits a byte. -/
theorem Reader.exists_taken_of_read {bytes : List UInt8} {front : List Taken} {later : Reader}
    {instruction : Instruction}
    (h : Instruction.read (behind bytes front) = .ok instruction later) : ∃ n, n < 256 ∧
      later.position - (behind bytes front).position = n ∧
      later = behind bytes (front ++ [⟨(behind bytes front).position, n, instruction⟩]) := by
  obtain ⟨n, hn, hlater⟩ := Instruction.exists_length_of_read h
  refine ⟨n, hn, ?_, ?_⟩
  · rw [hlater, Nat.add_sub_cancel_left]
  · rw [behind_append, hlater]

namespace Sweep

/-- A sweep as a source of its items, which are counted by running it to its end. -/
def source : Source Sweep (Except Stop Placed) where
  next := next
  count sweep := (sweep.items.length, sweep.drained)

/-- What the loop over a buffer notes. -/
def noted (bytes : List UInt8) : List (Except Stop Taken) :=
  (Reader.ofBytes bytes).loop 0

/-- The instructions among what the loop over a buffer notes. -/
def taken (bytes : List UInt8) : List Taken :=
  (noted bytes).filterMap Except.toOption

/-- Where a sweep of a buffer stands after a number of calls: at the item of that number, or at the
end of the buffer, or behind the fault that ended it. -/
inductive Stands (bytes : List UInt8) : Sweep → Nat → Prop where
  | reading {front : List Taken} (h : noted bytes =
      front.map .ok ++ (Reader.behind bytes front).loop front.length) :
    Stands bytes ⟨.behind bytes front, front.length, false⟩ front.length
  | ended {front : List Taken} {calls : Nat} (h : noted bytes = front.map .ok)
    (hmore : (Reader.behind bytes front).hasMore = false) (hcalls : front.length ≤ calls) :
    Stands bytes ⟨.behind bytes front, front.length, false⟩ calls
  | failed {front : List Taken} {stop : Stop} {reader : Reader} {calls : Nat}
    (h : noted bytes = front.map .ok ++ [.error stop]) (hcalls : front.length < calls) :
    Stands bytes ⟨reader, front.length, true⟩ calls

theorem stands_ofBytes (bytes : List UInt8) : Stands bytes (ofBytes bytes) 0 :=
  @Stands.reading bytes [] rfl

namespace Stands

variable {bytes : List UInt8} {sweep : Sweep} {calls : Nat}

/-- A call gives the item of its number and leaves the sweep at the one behind. -/
theorem next (h : Stands bytes sweep calls) :
    sweep.next.1.map (Except.map Placed.taken) = (noted bytes)[calls]? ∧
      Stands bytes sweep.next.2 (calls + 1) := by
  cases h with
  | @reading front h =>
    cases hmore : (Reader.behind bytes front).hasMore with
    | false =>
      rw [Reader.loop_of_not_hasMore hmore, List.append_nil] at h
      rw [next_of_not_hasMore hmore, h]
      refine ⟨by simp, .ended h hmore (Nat.le_succ _)⟩
    | true =>
      cases hread : Instruction.read (Reader.behind bytes front) with
      | ok instruction later =>
        obtain ⟨n, hn, hlength, hlater⟩ := Reader.exists_taken_of_read hread
        have hsize : (UInt8.ofNat n).toNat = n := UInt8.toNat_ofNat_of_lt' hn
        rw [Reader.loop_of_ok hmore hread, hlength] at h
        rw [next_of_ok hmore hread, hlength]
        refine ⟨?_, ?_⟩
        · rw [h]
          simp [Except.map, Placed.taken, hsize]
        · rw [hlater] at h ⊢
          have hlast := @reading bytes
            (front ++ [⟨(Reader.behind bytes front).position, n, instruction⟩])
          rw [List.length_append, List.length_singleton] at hlast
          apply hlast
          simpa using h
      | error cause later =>
        rw [Reader.loop_of_error hmore hread] at h
        rw [next_of_error hmore hread, h]
        refine ⟨by simp [Except.map], .failed h (Nat.lt_succ_self _)⟩
  | ended h hmore hcalls =>
    rw [next_of_not_hasMore hmore, h]
    refine ⟨by simp [hcalls], .ended h hmore (Nat.le_succ_of_le hcalls)⟩
  | failed h hcalls =>
    rw [next_of_failed, h]
    refine ⟨?_, .failed h (Nat.lt_succ_of_lt hcalls)⟩
    simp
    omega

/-- A sweep that has nothing left has it at every later call. -/
theorem of_length_le (h : Stands bytes sweep calls) (hcalls : (noted bytes).length ≤ calls)
    {later : Nat} (hlater : (noted bytes).length ≤ later) : Stands bytes sweep later := by
  cases h with
  | @reading front h =>
    cases hmore : (Reader.behind bytes front).hasMore with
    | false =>
      rw [Reader.loop_of_not_hasMore hmore, List.append_nil] at h
      rw [h, List.length_map] at hlater
      exact .ended h hmore hlater
    | true =>
      have hpos := List.length_pos_iff.mpr (Reader.loop_ne_nil hmore front.length)
      rw [h, List.length_append, List.length_map] at hcalls
      omega
  | ended h hmore _ =>
    rw [h, List.length_map] at hlater
    exact .ended h hmore hlater
  | failed h _ =>
    rw [h, List.length_append, List.length_map, List.length_singleton] at hlater
    exact .failed h hlater

/-- Running a sweep to its end gives all items from the one of its number on. -/
theorem items (h : Stands bytes sweep calls) :
    sweep.items.map (Except.map Placed.taken) = (noted bytes).drop calls ∧
      ∀ later, (noted bytes).length ≤ later → Stands bytes sweep.drained later := by
  induction hn : sweep.remaining using Nat.strongRecOn generalizing sweep calls with
  | _ n ih =>
    obtain ⟨hfound, hlast⟩ := h.next
    cases hnext : sweep.next with
    | mk item? last =>
      rw [hnext] at hfound hlast
      cases item? with
      | none =>
        have hle := List.getElem?_eq_none_iff.mp hfound.symm
        rw [items_of_next_none hnext, drained_of_next_none hnext, List.drop_eq_nil_of_le hle]
        exact ⟨rfl, fun later hlater => hlast.of_length_le (Nat.le_succ_of_le hle) hlater⟩
      | some item =>
        obtain ⟨hitems, hdrained⟩ := ih _ (hn ▸ remaining_lt hnext) hlast rfl
        rw [items_of_next_some hnext, drained_of_next_some hnext]
        obtain ⟨hlt, hitem⟩ := List.getElem?_eq_some_iff.mp hfound.symm
        rw [List.drop_eq_getElem_cons hlt, hitem, List.map_cons, hitems]
        exact ⟨rfl, hdrained⟩

/-- A sweep without a fault stands behind as many instructions as its index says. -/
theorem reader_eq (h : Stands bytes sweep calls) (hfailed : sweep.failed = false) :
    sweep.index ≤ (taken bytes).length ∧
      sweep.reader = .behind bytes ((taken bytes).take sweep.index) := by
  cases h with
  | reading h =>
    rw [taken, h, List.filterMap_append, filterMap_toOption_map_ok]
    simp
  | ended h _ _ =>
    rw [taken, h, filterMap_toOption_map_ok]
    simp
  | failed _ _ => cases hfailed

theorem index_eq (h : Stands bytes sweep calls) (hfailed : sweep.failed = true) :
    sweep.index = (taken bytes).length := by
  cases h with
  | reading _ => cases hfailed
  | ended _ _ _ => cases hfailed
  | failed h _ =>
    rw [taken, h, List.filterMap_append, filterMap_toOption_map_ok]
    simp [Except.toOption]

end Stands

/-- A sweep answers as the list of what the loop notes does. -/
theorem agrees_ofList (bytes : List UInt8) : source.Agrees (Source.ofList (noted bytes))
    (Except.map Placed.taken) (Stands bytes) where
  next h := h.next
  count h := by
    obtain ⟨hitems, hdrained⟩ := h.items
    have hlength := congrArg List.length hitems
    rw [List.length_map, List.length_drop] at hlength
    exact ⟨hlength, hdrained _ (Nat.le_add_left _ _)⟩

theorem stands_run (bytes : List UInt8) (uses : List Use) : List.Forall₂ (Stands bytes)
    (source.run [ofBytes bytes] uses).2 ((Source.ofList (noted bytes)).run [0] uses).2 :=
  ((agrees_ofList bytes).run (.cons (stands_ofBytes bytes) .nil) uses).2

theorem exists_stands_of_mem {bytes : List UInt8} {uses : List Use} {sweep : Sweep}
    (h : sweep ∈ (source.run [ofBytes bytes] uses).2) : ∃ calls, Stands bytes sweep calls := by
  obtain ⟨k, hk⟩ := List.mem_iff_getElem?.mp h
  have hrel := rel_getElem? (stands_run bytes uses) k
  rw [hk] at hrel
  generalize ((Source.ofList (noted bytes)).run [0] uses).2[k]? = calls? at hrel
  cases hrel with
  | some hstands => exact ⟨_, hstands⟩

/-- A sweep that has met its fault stays as it is, whatever it and the others are used for. -/
theorem getElem?_run_of_failed {pool : List Sweep} {k : Nat} {sweep : Sweep}
    (hsweep : pool[k]? = some sweep) (hfailed : sweep.failed = true) (uses : List Use) :
    sweep.next = (none, sweep) ∧ (source.run pool uses).2[k]? = some sweep := by
  obtain ⟨reader, index, failed⟩ := sweep
  cases hfailed
  have hnext := next_of_failed reader index
  have hfixed : (source.next ⟨reader, index, true⟩).2 = ⟨reader, index, true⟩ :=
    congrArg Prod.snd hnext
  have hdrained : (source.count ⟨reader, index, true⟩).2 = ⟨reader, index, true⟩ :=
    drained_of_next_none hnext
  exact ⟨hnext, Source.getElem?_run hfixed hdrained hsweep uses⟩

end Sweep

namespace Listing

/-- The listing that a loop makes of the instructions that it notes. -/
def ofTaken (taken : List Taken) : String :=
  "bits 16\n\n" ++ String.join (taken.map fun note => note.instruction.text ++ "\n")

theorem ofTaken_map (placed : List Placed) :
    ofTaken (placed.map Placed.taken) = ofInstructions placed := by
  rw [ofTaken, List.map_map]
  rfl

theorem mapM_map_taken (items : List (Except Stop Placed)) :
    (items.map (Except.map Placed.taken)).mapM id =
      (instructions items).map (List.map Placed.taken) := by
  induction items with
  | nil => rfl
  | cons item items ih =>
    cases item with
    | error stop =>
      rw [instructions_error_cons, List.map_cons, List.mapM_cons]
      rfl
    | ok placed =>
      rw [instructions_ok_cons, List.map_cons, List.mapM_cons, ih]
      cases instructions items <;> rfl

/-- A buffer has the listing of what the loop over it notes, or the fault that the loop notes. -/
theorem disassemble_eq_ofTaken (bytes : List UInt8) :
    disassemble bytes = ((Sweep.noted bytes).mapM id).map ofTaken := by
  have hitems := (Sweep.stands_ofBytes bytes).items.1
  rw [List.drop_zero] at hitems
  rw [← hitems, mapM_map_taken, disassemble]
  cases instructions (Sweep.ofBytes bytes).items with
  | error stop => rfl
  | ok placed => exact congrArg Except.ok (ofTaken_map placed).symm

end Listing

/-- However the sweeps of a buffer are asked, counted and cloned, they answer what the plain loop
over the buffer noted: a call gives the item of its number, and a count what is left of the items.
A sweep that has met no fault stands behind the instructions of which its index is the number. One
that has met it counts them all, and does not change any more. And the listing of the buffer is
made of what the loop noted, as far as the loop met no fault. -/
theorem Sweep.run_eq_loop (bytes : List UInt8) (uses : List Use) :
    (source.run [ofBytes bytes] uses).1.map (Option.map (Answer.map (Except.map Placed.taken))) =
      ((Source.ofList ((Reader.ofBytes bytes).loop 0)).run [0] uses).1 ∧
    (∀ (k : Nat) (sweep : Sweep), (source.run [ofBytes bytes] uses).2[k]? = some sweep →
      (sweep.failed = false → sweep.index ≤ (taken bytes).length ∧
        sweep.reader = .behind bytes ((taken bytes).take sweep.index)) ∧
      (sweep.failed = true → sweep.index = (taken bytes).length ∧ sweep.next = (none, sweep) ∧
        ∀ more, (source.run [ofBytes bytes] (uses ++ more)).2[k]? = some sweep)) ∧
    Listing.disassemble bytes =
      (((Reader.ofBytes bytes).loop 0).mapM id).map Listing.ofTaken := by
  refine ⟨?_, ?_, Listing.disassemble_eq_ofTaken bytes⟩
  · exact ((agrees_ofList bytes).run (.cons (stands_ofBytes bytes) .nil) uses).1
  · intro k sweep hsweep
    obtain ⟨calls, hstands⟩ := exists_stands_of_mem (List.mem_of_getElem? hsweep)
    refine ⟨hstands.reader_eq, fun hfailed => ?_⟩
    have hfixed := getElem?_run_of_failed hsweep hfailed
    refine ⟨hstands.index_eq hfailed, (hfixed []).1, fun more => ?_⟩
    rw [Source.run_append]
    exact (hfixed more).2

/-- A copy is counted while the first sweep goes on to its fault. -/
theorem Sweep.run_eq_loop_fault :
    (source.run [ofBytes [0xB0, 0x05, 0xFF]]
        [⟨.next, 0⟩, ⟨.clone, 0⟩, ⟨.count, 1⟩, ⟨.next, 0⟩, ⟨.next, 0⟩]).1.map
          (Option.map (Answer.map (Except.map Placed.taken))) =
      [some (.item (some (.ok ⟨0, 2, .movImmediate ⟨0, .byte⟩ 5 .byte⟩))), some (.clone 1),
        some (.count 1), some (.item (some (.error ⟨1, 2, .unknownOpcode 0xFF⟩))),
        some (.item none)] ∧
    (source.run [ofBytes [0xB0, 0x05, 0xFF]] [⟨.next, 0⟩, ⟨.next, 0⟩]).2[0]? =
      some ⟨⟨3, []⟩, 1, true⟩ ∧
    (taken [0xB0, 0x05, 0xFF]).length = 1 := by
  have hloop : (Reader.ofBytes [0xB0, 0x05, 0xFF]).loop 0 =
      [.ok ⟨0, 2, .movImmediate ⟨0, .byte⟩ 5 .byte⟩, .error ⟨1, 2, .unknownOpcode 0xFF⟩] := by
    rw [Reader.loop_of_ok rfl rfl, Reader.loop_of_error rfl rfl]
    rfl
  have hanswers := (run_eq_loop [0xB0, 0x05, 0xFF]
    [⟨.next, 0⟩, ⟨.clone, 0⟩, ⟨.count, 1⟩, ⟨.next, 0⟩, ⟨.next, 0⟩]).1
  rw [hloop] at hanswers
  have hfailed := (run_eq_loop [0xB0, 0x05, 0xFF] [⟨.next, 0⟩, ⟨.next, 0⟩]).2.1 0
    ⟨⟨3, []⟩, 1, true⟩ rfl
  exact ⟨hanswers, rfl, (hfailed.2 rfl).1.symm⟩

end Disasm8086
