import Disasm8086.Fault
import Disasm8086.Width
import Disasm8086.Word

/-!
# Reading bytes

A reader stands at a position of a buffer and has the bytes from there on before it. A read takes
what it returns; a read that the remaining bytes cannot serve takes nothing. A sequence of reads
keeps what its successful reads have taken, also when a later one fails. So every read moves
forward: the bytes behind its end are those in front of it less the ones it passed.
-/
namespace Disasm8086

structure Reader where
  position : Nat
  rest : List UInt8
  deriving DecidableEq, Repr

/-- Reads that may end in a fault and leave the reader where they stopped. -/
abbrev Read := EStateM Fault Reader

namespace Reader

/-- A reader at the first byte of a buffer. -/
def ofBytes (bytes : List UInt8) : Reader :=
  ⟨0, bytes⟩

def hasMore (reader : Reader) : Bool :=
  !reader.rest.isEmpty

/-- `later` is the reader with some of its bytes taken. -/
def Passes (reader later : Reader) : Prop :=
  ∃ taken, reader.rest = taken ++ later.rest ∧ later.position = reader.position + taken.length

theorem Passes.refl (reader : Reader) : reader.Passes reader :=
  ⟨[], rfl, rfl⟩

theorem Passes.trans {first second third : Reader} (h : first.Passes second)
    (h' : second.Passes third) : first.Passes third := by
  obtain ⟨taken, hrest, hposition⟩ := h
  obtain ⟨taken', hrest', hposition'⟩ := h'
  refine ⟨taken ++ taken', ?_, ?_⟩
  · rw [hrest, hrest', List.append_assoc]
  · rw [hposition', hposition, List.length_append, Nat.add_assoc]

theorem Passes.length_le {reader later : Reader} (h : reader.Passes later) :
    later.rest.length ≤ reader.rest.length := by
  obtain ⟨taken, hrest, -⟩ := h
  rw [hrest, List.length_append]
  exact Nat.le_add_left ..

end Reader

section

variable {ε σ α β : Type} {work : EStateM ε σ α} {state later : σ}

theorem bind_of_ok {a : α} (h : work state = .ok a later) (next : α → EStateM ε σ β) :
    (work >>= next) state = next a later := by
  change EStateM.bind work next state = _
  rw [EStateM.bind, h]

theorem bind_of_error {error : ε} (h : work state = .error error later)
    (next : α → EStateM ε σ β) : (work >>= next) state = .error error later := by
  change EStateM.bind work next state = _
  rw [EStateM.bind, h]

end

namespace Read

variable {α β : Type}

def byte : Read UInt8 := fun reader =>
  match reader.rest with
  | b :: rest => .ok b ⟨reader.position + 1, rest⟩
  | [] => .error (.endOfInput reader.position) reader

/-- A word, low byte first. -/
def word : Read UInt16 := fun reader =>
  match reader.rest with
  | low :: high :: rest => .ok (Word.ofBytes low high) ⟨reader.position + 2, rest⟩
  | _ => .error (.endOfInput reader.position) reader

/-- A number of the given width. -/
def number : Width → Read UInt16
  | .byte => do return (← byte).toUInt16
  | .word => word

/-- Where a read leaves the reader, on success and on failure. -/
def after (read : Read α) (reader : Reader) : Reader :=
  match read reader with
  | .ok _ later => later
  | .error _ later => later

/-- A read that only ever moves forward. -/
def Forward (read : Read α) : Prop :=
  ∀ reader : Reader, reader.Passes (read.after reader)

/-- A read made of byte and word reads one after the other, which may also end in a fault of its
own; bytes that run out are found by the byte and word reads alone. What such a read does to its
reader follows by induction on the reads it is made of. -/
inductive Stepwise : Read α → Prop where
  | pure (a : α) : Stepwise (pure a)
  | throw {fault : Fault} (h : ∀ offset, fault ≠ .endOfInput offset) : Stepwise (throw fault)
  | byte {next : UInt8 → Read α} (h : ∀ b, Stepwise (next b)) : Stepwise (Read.byte >>= next)
  | word {next : UInt16 → Read α} (h : ∀ value, Stepwise (next value)) :
    Stepwise (Read.word >>= next)

/-- A stepwise read whose byte and word reads each begin at least two bytes before the end of a
window of `n` bytes, so that all it takes lies in the window, and whose own faults are `faults`. -/
inductive Within (faults : Fault → Prop) : Nat → Read α → Prop where
  | pure (n : Nat) (a : α) : Within faults n (pure a)
  | throw (n : Nat) {fault : Fault} (h : faults fault) (h' : ∀ offset, fault ≠ .endOfInput offset) :
    Within faults n (throw fault)
  | byte {n : Nat} {next : UInt8 → Read α} (hn : 0 < n) (h : ∀ b, Within faults n (next b)) :
    Within faults (n + 1) (Read.byte >>= next)
  | word {n : Nat} {next : UInt16 → Read α} (h : ∀ value, Within faults n (next value)) :
    Within faults (n + 2) (Read.word >>= next)

section

variable {faults : Fault → Prop} {m n : Nat}

theorem Within.mono {read : Read α} (h : Within faults m read) (hle : m ≤ n) :
    Within faults n read := by
  induction h generalizing n with
  | pure _ a => exact .pure n a
  | throw _ hfault hend => exact .throw n hfault hend
  | @byte m next hm h ih =>
    obtain ⟨n, rfl⟩ : ∃ k, n = k + 1 := ⟨n - 1, by omega⟩
    exact .byte (by omega) fun b => ih b (by omega)
  | @word m next h ih =>
    obtain ⟨n, rfl⟩ : ∃ k, n = k + 2 := ⟨n - 2, by omega⟩
    exact .word fun value => ih value (by omega)

theorem Within.imp {read : Read α} {faults' : Fault → Prop} (h : Within faults n read)
    (himp : ∀ fault, faults fault → faults' fault) : Within faults' n read := by
  induction h with
  | pure n a => exact .pure n a
  | throw n hfault hend => exact .throw n (himp _ hfault) hend
  | byte hn _ ih => exact .byte hn ih
  | word _ ih => exact .word ih

/-- Windows that follow each other make up one. -/
theorem Within.bind {read : Read α} {next : α → Read β} (h : Within faults m read)
    (h' : ∀ a, Within faults n (next a)) : Within faults (m + n) (read >>= next) := by
  induction h with
  | pure m a =>
    rw [pure_bind]
    exact (h' a).mono (Nat.le_add_left n m)
  | throw m hfault hend => exact .throw (m + n) hfault hend
  | byte hm _ ih =>
    rw [bind_assoc, Nat.add_right_comm]
    exact .byte (by omega) ih
  | word _ ih =>
    rw [bind_assoc, Nat.add_right_comm]
    exact .word ih

theorem Within.stepwise {read : Read α} (h : Within faults n read) : Stepwise read := by
  induction h with
  | pure _ a => exact .pure a
  | throw _ _ hend => exact .throw hend
  | byte _ _ ih => exact .byte ih
  | word _ ih => exact .word ih

theorem within_byte : Within faults 2 byte := by
  have h : Within faults 2 (byte >>= pure) := .byte Nat.one_pos fun b => .pure 1 b
  rwa [bind_pure] at h

theorem within_word : Within faults 2 word := by
  have h : Within faults 2 (word >>= pure) := .word fun value => .pure 0 value
  rwa [bind_pure] at h

theorem within_number (width : Width) : Within faults 2 (number width) := by
  cases width with
  | byte => exact within_byte.bind fun _ => .pure 0 _
  | word => exact within_word

end

theorem Forward.of_ok {read : Read α} (h : Forward read) {reader later : Reader} {a : α}
    (hread : read reader = .ok a later) : reader.Passes later := by
  have hpasses := h reader
  rwa [after, hread] at hpasses

theorem Forward.of_error {read : Read α} (h : Forward read) {reader later : Reader} {fault : Fault}
    (hread : read reader = .error fault later) : reader.Passes later := by
  have hpasses := h reader
  rwa [after, hread] at hpasses

theorem Forward.bind {read : Read α} {next : α → Read β} (h : Forward read)
    (h' : ∀ a, Forward (next a)) : Forward (read >>= next) := by
  intro reader
  have hread := h reader
  rw [after] at hread ⊢
  cases hr : read reader with
  | ok a later =>
    rw [hr] at hread
    rw [bind_of_ok hr]
    exact hread.trans (h' a later)
  | error fault later =>
    rw [hr] at hread
    rw [bind_of_error hr]
    exact hread

theorem forward_byte : Forward byte := by
  rintro ⟨position, _ | ⟨b, rest⟩⟩
  · exact .refl _
  · exact ⟨[b], rfl, rfl⟩

theorem forward_word : Forward word := by
  rintro ⟨position, _ | ⟨low, _ | ⟨high, rest⟩⟩⟩
  · exact .refl _
  · exact .refl _
  · exact ⟨[low, high], rfl, rfl⟩

theorem forward_number (width : Width) : Forward (number width) := by
  cases width with
  | byte => exact forward_byte.bind fun _ => .refl
  | word => exact forward_word

theorem Stepwise.forward {read : Read α} (h : Stepwise read) : Forward read := by
  induction h with
  | pure _ => exact .refl
  | throw _ => exact .refl
  | byte _ ih => exact forward_byte.bind ih
  | word _ ih => exact forward_word.bind ih

end Read

end Disasm8086
