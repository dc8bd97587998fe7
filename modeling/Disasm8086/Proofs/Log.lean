import Disasm8086.Proofs.Events
import Disasm8086.Proofs.Factorization

/-!
# What a run writes

The command decodes and logs in one sweep. Its log holds what the filter lets through of the events
of the run, in order: the loaded input, the instructions with their numbers, and the end of a
listing. The rest of its outcome is the listing of the input, or the fault that leaves it without
one, whatever the filter is.
-/
namespace Disasm8086.Command

open Segment

variable {platform : Platform}

namespace Console

/-- The console behind events, as far as the filter lets them through. -/
def extend (filter : platform.Filter) (console : Console platform) (events : List Event) :
    Console platform :=
  (events.filter (platform.admits filter)).foldl write console

variable {filter : platform.Filter}

theorem extend_append (console : Console platform) (events more : List Event) :
    console.extend filter (events ++ more) = (console.extend filter events).extend filter more := by
  rw [extend, List.filter_append, List.foldl_append]
  rfl

theorem text_foldl_write (console : Console platform) (events : List Event) :
    (events.foldl write console).text = console.text ++ platform.logText console.clock events := by
  induction events generalizing console with
  | nil => rw [List.foldl_nil, Platform.logText, String.append_empty]
  | cons event events ih =>
    rw [List.foldl_cons, ih, Platform.logText, ← String.append_assoc]
    rfl

/-- A console whose text is what the log writes for the events that are let through. -/
theorem text_extend (clock : platform.Clock) (events : List Event) :
    (extend filter ⟨clock, ""⟩ events).text =
      platform.logText clock (events.filter (platform.admits filter)) := by
  rw [extend, text_foldl_write]
  exact String.empty_append

end Console

/-- The events of instructions that are decoded one behind the other, with numbers from `index`
on. -/
def Event.ofPlaced (index : Nat) : List Placed → List Event
  | [] => []
  | placed :: rest => .decoded index placed :: ofPlaced (index + 1) rest

section

variable {ε ε' σ α : Type} {work : EStateM ε σ α} {state later : σ}

theorem adaptExcept_of_ok {a : α} (h : work state = .ok a later) (f : ε → ε') :
    work.adaptExcept f state = .ok a later := by
  rw [EStateM.adaptExcept, h]

theorem adaptExcept_of_error {error : ε} (h : work state = .error error later)
    (f : ε → ε') : work.adaptExcept f state = .error (f error) later := by
  rw [EStateM.adaptExcept, h]

end

section

variable {filter : platform.Filter}

theorem write_eq {ε : Type} (event : Event) (console : Console platform) :
    (write filter event : Logged platform ε Unit) console =
      .ok () (console.extend filter [event]) := by
  change EStateM.Result.ok ()
    (if platform.admits filter event then console.write event else console) = _
  cases h : platform.admits filter event <;> simp [Console.extend, h]

/-- What a sweep finds of a run of instructions is logged and added line by line; then comes what is
behind the run. -/
theorem collect_flatten (filter : platform.Filter) (segments : List Segment) (position index : Nat)
    (rest : List UInt8) (text : String) (count : Nat) (console : Console platform) :
    collect filter (.running position index (flatten segments ++ rest)) text count console =
      collect filter
        (.running (position + (flatten segments).length) (index + segments.length) rest)
        (text ++ String.join ((place position segments).map Listing.line))
        (count + segments.length)
        (console.extend filter (Event.ofPlaced index (place position segments))) := by
  -- The number of the sweep and the count run side by side, each from a start of its own.
  induction segments generalizing position index text count console with
  | nil => simp [place, Event.ofPlaced, Console.extend]
  | cons segment segments ih =>
    rw [flatten_cons, List.append_assoc,
      collect_of_next_ok (Sweep.next_running_segment segment position index _),
      bind_of_ok (write_eq _ console), ih, ← Console.extend_append]
    simp only [place, List.map_cons, List.length_cons, List.length_append, String.join_cons,
      String.append_assoc, Nat.add_assoc, Nat.add_comm 1]
    rfl

/-- The listing of a run of instructions is complete, and so is its log. -/
theorem listing_flatten (segments : List Segment) (console : Console platform) :
    listing filter (flatten segments) console =
      .ok (Listing.ofInstructions (place 0 segments))
        (console.extend filter (Event.ofPlaced 0 (place 0 segments) ++
          [.finished segments.length (flatten segments).length])) := by
  have hcollect := collect_flatten filter segments 0 0 [] Listing.header 0 console
  rw [List.append_nil, collect_of_next_none (Sweep.next_running_nil _ _),
    Nat.zero_add] at hcollect
  rw [Console.extend_append]
  exact (bind_of_ok hcollect _).trans (bind_of_ok (write_eq _ _) _)

/-- A fault behind a run of instructions leaves the log of the run. -/
theorem listing_faulty (segments : List Segment) {rest : List UInt8} {cause : Fault}
    (h : Faulty (flatten segments).length rest cause) (console : Console platform) :
    listing filter (flatten segments ++ rest) console =
      .error ⟨segments.length, (flatten segments).length, cause⟩
        (console.extend filter (Event.ofPlaced 0 (place 0 segments))) := by
  obtain ⟨hrest, later, hread⟩ := h
  have hcollect := collect_flatten filter segments 0 0 rest Listing.header 0 console
  rw [Nat.zero_add, Nat.zero_add,
    collect_of_next_error (Sweep.next_running_fault hrest hread segments.length)] at hcollect
  exact bind_of_error hcollect _

end

/-- The events of a run on a file that holds instructions and nothing else. -/
def Event.complete (path : String) (segments : List Segment) : List Event :=
  .loaded path (flatten segments).length :: (ofPlaced 0 (place 0 segments) ++
    [.finished segments.length (flatten segments).length])

/-- The events of a run on a file of `size` bytes that has a fault behind some instructions. -/
def Event.broken (path : String) (size : Nat) (segments : List Segment) : List Event :=
  .loaded path size :: ofPlaced 0 (place 0 segments)

theorem ofRun_ofPlaced (path : String) (index : Nat) (placed : List Placed) :
    ∀ event ∈ Event.ofPlaced index placed, event.OfRun path := by
  induction placed generalizing index with
  | nil =>
    intro event hevent
    cases hevent
  | cons first placed ih => exact List.forall_mem_cons.mpr ⟨.decoded index first, ih (index + 1)⟩

theorem ofRun_complete (path : String) (segments : List Segment) :
    ∀ event ∈ Event.complete path segments, event.OfRun path := by
  refine List.forall_mem_cons.mpr ⟨.loaded _, List.forall_mem_append.mpr ⟨?_, ?_⟩⟩
  · exact ofRun_ofPlaced path 0 _
  · exact List.forall_mem_singleton.mpr (.finished _ _)

theorem ofRun_broken (path : String) (size : Nat) (segments : List Segment) :
    ∀ event ∈ Event.broken path size segments, event.OfRun path :=
  List.forall_mem_cons.mpr ⟨.loaded size, ofRun_ofPlaced path 0 _⟩

section

variable {filter : platform.Filter} {path : platform.Path}

theorem disassembleFile_of_read_error {error : String} (h : platform.read path = .error error)
    (console : Console platform) :
    disassembleFile filter path console = .error (.read path error) console := by
  rw [disassembleFile, h]
  rfl

/-- A file that is read is logged as loaded, then listed. -/
theorem disassembleFile_of_read {bytes : List UInt8} (h : platform.read path = .ok bytes)
    (console : Console platform) : disassembleFile filter path console =
      (listing filter bytes).adaptExcept (.decode path)
        (console.extend filter [.loaded (platform.display path) bytes.length]) := by
  rw [disassembleFile, h]
  exact bind_of_ok (write_eq _ console) _

theorem disassembleFile_flatten {segments : List Segment}
    (h : platform.read path = .ok (flatten segments)) (console : Console platform) :
    disassembleFile filter path console = .ok (Listing.ofInstructions (place 0 segments))
      (console.extend filter (Event.complete (platform.display path) segments)) := by
  rw [disassembleFile_of_read h, adaptExcept_of_ok (listing_flatten segments _) _,
    ← Console.extend_append]
  rfl

theorem disassembleFile_faulty {segments : List Segment} {rest : List UInt8} {cause : Fault}
    (h : platform.read path = .ok (flatten segments ++ rest))
    (hfault : Faulty (flatten segments).length rest cause) (console : Console platform) :
    disassembleFile filter path console =
      .error (.decode path ⟨segments.length, (flatten segments).length, cause⟩)
        (console.extend filter (Event.broken (platform.display path)
          (flatten segments ++ rest).length segments)) := by
  rw [disassembleFile_of_read h, adaptExcept_of_error (listing_faulty segments hfault _) _,
    ← Console.extend_append]
  rfl

/-- A run that finds a path comes to the result of the file at the path. -/
theorem run_of_parse {arguments : List platform.Argument} (h : platform.parse arguments = .ok path)
    (setting : Option String) (clock : platform.Clock) : platform.run setting clock arguments =
      .ofResult (disassembleFile (platform.filterOf setting) path ⟨clock, ""⟩) := by
  rw [Platform.run, Platform.runWith, h]

end

end Disasm8086.Command
