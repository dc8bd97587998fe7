import Disasm8086.Command.Platform
import Disasm8086.Listing

/-!
# The log

A run writes events to the log as it works: when the input is loaded, behind each instruction that
it decodes, and when the listing is complete. The filter decides which of them are written, and
what is written before a failure stays written.
-/
namespace Disasm8086.Command

variable {platform : Platform}

/-- Standard error while the command runs. -/
structure Console (platform : Platform) where
  clock : platform.Clock
  text : String

def Console.write : Console platform → Event → Console platform
  | ⟨clock, text⟩, event =>
    let (more, clock) := platform.format clock event
    ⟨clock, text ++ more⟩

/-- Work that writes to the log and may fail. -/
abbrev Logged (platform : Platform) (ε : Type) := EStateM ε (Console platform)

/-- Writes an event, if the filter lets it through. -/
def write {ε : Type} (filter : platform.Filter) (event : Event) : Logged platform ε Unit :=
  modify fun console => if platform.admits filter event then console.write event else console

/-- Adds the lines of the instructions that a sweep still finds to the `text` of `count` others,
and writes each of them to the log. -/
def collect (filter : platform.Filter) (sweep : Sweep) (text : String) (count : Nat) :
    Logged platform Stop (String × Nat) :=
  match _h : sweep.next with
  | (none, _) => return (text, count)
  | (some (.error stop), _) => throw stop
  | (some (.ok placed), later) => do
    write filter (.decoded sweep.index placed)
    collect filter later (text ++ Listing.line placed) (count + 1)
termination_by sweep.remaining
decreasing_by exact Sweep.remaining_lt _h

section

variable {sweep later : Sweep}

theorem collect_of_next_none (h : sweep.next = (none, later)) (filter : platform.Filter)
    (text : String) (count : Nat) : collect filter sweep text count = return (text, count) := by
  rw [collect]
  split <;> simp_all

theorem collect_of_next_error {stop : Stop} (h : sweep.next = (some (.error stop), later))
    (filter : platform.Filter) (text : String) (count : Nat) :
    collect filter sweep text count = throw stop := by
  rw [collect]
  split <;> simp_all

theorem collect_of_next_ok {placed : Placed} (h : sweep.next = (some (.ok placed), later))
    (filter : platform.Filter) (text : String) (count : Nat) :
    collect filter sweep text count = (do
      write filter (.decoded sweep.index placed)
      collect filter later (text ++ Listing.line placed) (count + 1)) := by
  rw [collect]
  split <;> simp_all

end

/-- The listing of a buffer. -/
def listing (filter : platform.Filter) (bytes : List UInt8) : Logged platform Stop String := do
  let (text, count) ← collect filter (.ofBytes bytes) Listing.header 0
  write filter (.finished count bytes.length)
  return text

end Disasm8086.Command
