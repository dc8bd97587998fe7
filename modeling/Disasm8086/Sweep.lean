import Disasm8086.Encoding.Decode

/-!
# Linear sweeps

A sweep reads a buffer from its first byte to its last, each instruction beginning where the one
before it ended. The first fault is the last thing it finds, whatever bytes are left.
-/
namespace Disasm8086

/-- An instruction with its place in the buffer. -/
structure Placed where
  offset : Nat
  size : UInt8
  instruction : Instruction
  deriving DecidableEq, Repr

/-- The offset of the byte behind the instruction. -/
def Placed.nextOffset (placed : Placed) : Nat :=
  placed.offset + placed.size.toNat

/-- Where a sweep met a fault: the number and the offset of the instruction it was reading. -/
structure Stop where
  index : Nat
  offset : Nat
  cause : Fault
  deriving DecidableEq, Repr

def Stop.message (stop : Stop) : String :=
  "failed to decode instruction " ++ toString stop.index ++
    " (byte offset " ++ toString stop.offset ++ ")"

structure Sweep where
  reader : Reader
  index : Nat
  failed : Bool
  deriving DecidableEq, Repr

namespace Sweep

def ofBytes (bytes : List UInt8) : Sweep :=
  ⟨.ofBytes bytes, 0, false⟩

/-- What the sweep finds next, and the sweep behind it. -/
def next (sweep : Sweep) : Option (Except Stop Placed) × Sweep :=
  if sweep.failed || !sweep.reader.hasMore then (none, sweep)
  else
    let start := sweep.reader.position
    match Instruction.read sweep.reader with
    | .ok instruction reader =>
      (some (.ok ⟨start, .ofNat (reader.position - start), instruction⟩),
        { sweep with reader, index := sweep.index + 1 })
    | .error cause reader =>
      (some (.error ⟨sweep.index, start, cause⟩), { sweep with reader, failed := true })

theorem next_of_ok {reader later : Reader} {instruction : Instruction} (hmore : reader.hasMore)
    (hread : Instruction.read reader = .ok instruction later) (index : Nat) :
    next ⟨reader, index, false⟩ =
      (some (.ok ⟨reader.position, .ofNat (later.position - reader.position), instruction⟩),
        ⟨later, index + 1, false⟩) := by
  simp [next, hmore, hread]

theorem next_of_error {reader later : Reader} {cause : Fault} (hmore : reader.hasMore)
    (hread : Instruction.read reader = .error cause later) (index : Nat) :
    next ⟨reader, index, false⟩ =
      (some (.error ⟨index, reader.position, cause⟩), ⟨later, index, true⟩) := by
  simp [next, hmore, hread]

theorem next_of_not_hasMore {reader : Reader} (hmore : reader.hasMore = false) (index : Nat) :
    next ⟨reader, index, false⟩ = (none, ⟨reader, index, false⟩) := by
  simp [next, hmore]

theorem next_of_failed (reader : Reader) (index : Nat) :
    next ⟨reader, index, true⟩ = (none, ⟨reader, index, true⟩) := rfl

/-- A bound on what the sweep can still find. -/
def remaining (sweep : Sweep) : Nat :=
  if sweep.failed then 0 else sweep.reader.rest.length + 1

theorem remaining_lt {sweep later : Sweep} {found : Except Stop Placed}
    (h : sweep.next = (some found, later)) : later.remaining < sweep.remaining := by
  unfold next at h
  split at h
  · cases h
  · rename_i hrun
    have hfailed : sweep.failed = false := by simp_all
    cases hread : Instruction.read sweep.reader with
    | ok instruction reader =>
      have hlt := Instruction.read_shortens hread
      simp only [hread, Prod.mk.injEq] at h
      rw [← h.2]
      simp only [remaining, hfailed, Bool.false_eq_true, if_false]
      omega
    | error cause reader =>
      simp only [hread, Prod.mk.injEq] at h
      rw [← h.2]
      simp [remaining, hfailed]

/-- Runs the sweep to its end: all that it still finds, behind what was `found` before, which comes
last first, and the sweep behind it. -/
def drain (sweep : Sweep) (found : List (Except Stop Placed)) :
    List (Except Stop Placed) × Sweep :=
  match _h : sweep.next with
  | (none, later) => (found.reverse, later)
  | (some item, later) => later.drain (item :: found)
termination_by sweep.remaining
decreasing_by exact remaining_lt _h

/-- All that the sweep still finds, in order. -/
def items (sweep : Sweep) : List (Except Stop Placed) :=
  (sweep.drain []).1

/-- The sweep at its end. -/
def drained (sweep : Sweep) : Sweep :=
  (sweep.drain []).2

theorem drain_of_next_none {sweep later : Sweep} (h : sweep.next = (none, later))
    (found : List (Except Stop Placed)) : sweep.drain found = (found.reverse, later) := by
  rw [drain]
  split <;> simp_all

theorem drain_of_next_some {sweep later : Sweep} {item : Except Stop Placed}
    (h : sweep.next = (some item, later)) (found : List (Except Stop Placed)) :
    sweep.drain found = later.drain (item :: found) := by
  rw [drain]
  split <;> simp_all

theorem drain_eq (sweep : Sweep) (found : List (Except Stop Placed)) :
    sweep.drain found = (found.reverse ++ sweep.items, sweep.drained) := by
  induction hn : sweep.remaining using Nat.strongRecOn generalizing sweep found with
  | _ n ih =>
    unfold items drained
    cases h : sweep.next with
    | mk item? later =>
      cases item? with
      | none => simp [drain_of_next_none h]
      | some item =>
        have hlt := remaining_lt h
        rw [drain_of_next_some h, drain_of_next_some h, ih _ (hn ▸ hlt) later (item :: found) rfl,
          ih _ (hn ▸ hlt) later [item] rfl]
        simp

theorem drained_of_next_none {sweep later : Sweep} (h : sweep.next = (none, later)) :
    sweep.drained = later := by
  simp [drained, drain_of_next_none h]

theorem drained_of_next_some {sweep later : Sweep} {item : Except Stop Placed}
    (h : sweep.next = (some item, later)) : sweep.drained = later.drained := by
  simp [drained, drain_of_next_some h, drain_eq later [item]]

theorem items_of_next_none {sweep later : Sweep} (h : sweep.next = (none, later)) :
    sweep.items = [] := by
  simp [items, drain_of_next_none h]

theorem items_of_next_some {sweep later : Sweep} {item : Except Stop Placed}
    (h : sweep.next = (some item, later)) : sweep.items = item :: later.items := by
  simp [items, drain_of_next_some h, drain_eq later [item]]

end Sweep

end Disasm8086
