import Disasm8086.Encoding.Decode
import Disasm8086.Proofs.Bytes

/-!
# Reads of so many bytes

A read that knows in front how many bytes it needs takes them all or, if there are less, nothing.
The operand of a mode is such a read.
-/
namespace Disasm8086

/-- The reader with `n` bytes taken. -/
def Reader.skip (n : Nat) (reader : Reader) : Reader :=
  ⟨reader.position + n, reader.rest.drop n⟩

theorem Reader.skip_skip (m n : Nat) (reader : Reader) :
    (reader.skip m).skip n = reader.skip (m + n) := by
  simp [skip, Nat.add_assoc]

/-- The number of bytes of a width. -/
def Width.size : Width → Nat
  | .byte => 1
  | .word => 2

namespace Read

variable {α β : Type} {n : Nat} {read : Read α}

/-- A read of `n` bytes that takes them all or, if there are less, nothing. -/
def Takes (n : Nat) (read : Read α) : Prop :=
  ∀ reader : Reader, (n ≤ reader.rest.length → ∃ a, read reader = .ok a (reader.skip n)) ∧
    (reader.rest.length < n → read reader = .error (.endOfInput reader.position) reader)

theorem takes_pure (a : α) : Takes 0 (pure a) := by
  intro reader
  exact ⟨fun _ => ⟨a, rfl⟩, fun h => absurd h (Nat.not_lt_zero _)⟩

theorem takes_byte : Takes 1 byte := by
  rintro ⟨position, _ | ⟨b, rest⟩⟩
  · exact ⟨by simp, fun _ => rfl⟩
  · exact ⟨fun _ => ⟨b, rfl⟩, by simp⟩

theorem takes_word : Takes 2 word := by
  rintro ⟨position, _ | ⟨low, _ | ⟨high, rest⟩⟩⟩
  · exact ⟨by simp, fun _ => rfl⟩
  · exact ⟨by simp, fun _ => rfl⟩
  · exact ⟨fun _ => ⟨Word.ofBytes low high, rfl⟩, by simp⟩

/-- A read followed by no further one takes the same bytes. -/
theorem Takes.map (h : Takes n read) (f : α → β) : Takes n (read >>= fun a => pure (f a)) := by
  intro reader
  obtain ⟨hall, hnone⟩ := h reader
  constructor
  · intro hn
    obtain ⟨a, ha⟩ := hall hn
    exact ⟨f a, bind_of_ok ha _⟩
  · intro hn
    exact bind_of_error (hnone hn) _

theorem takes_number (width : Width) : Takes width.size (number width) := by
  cases width with
  | byte => exact takes_byte.map _
  | word => exact takes_word

/-- A read of `n` bytes succeeds exactly if there are as many. -/
theorem Takes.exists_ok_iff (h : Takes n read) (reader : Reader) :
    (∃ a later, read reader = .ok a later) ↔ n ≤ reader.rest.length := by
  obtain ⟨hall, hnone⟩ := h reader
  constructor
  · rintro ⟨a, later, hread⟩
    by_contra hn
    rw [hnone (by omega)] at hread
    cases hread
  · intro hn
    obtain ⟨a, ha⟩ := hall hn
    exact ⟨a, _, ha⟩

theorem Takes.later_eq (h : Takes n read) {reader later : Reader} {a : α}
    (hread : read reader = .ok a later) : later = reader.skip n := by
  obtain ⟨a', ha'⟩ := (h reader).1 ((h.exists_ok_iff reader).mp ⟨a, later, hread⟩)
  rw [ha'] at hread
  cases hread
  rfl

theorem Takes.eq_of_error (h : Takes n read) {reader later : Reader} {fault : Fault}
    (hread : read reader = .error fault later) : later = reader := by
  obtain ⟨hall, hnone⟩ := h reader
  by_cases hn : n ≤ reader.rest.length
  · obtain ⟨a, ha⟩ := hall hn
    rw [ha] at hread
    cases hread
  · rw [hnone (by omega)] at hread
    cases hread
    rfl

end Read

namespace Operand

open Read

/-- The number of displacement bytes for a mode and an `rm` field, of which the low three bits
count. -/
def displacementSize (mode rm : UInt8) : Nat :=
  if mode = 0 then if rm % 8 = 6 then 2 else 0
  else if mode = 1 then 1
  else if mode = 2 then 2
  else 0

theorem eq_of_mode_le {mode : UInt8} (h : mode ≤ 3) :
    mode = 0 ∨ mode = 1 ∨ mode = 2 ∨ mode = 3 := by
  have hle : mode.toNat ≤ 3 := h
  simp only [← UInt8.toNat_inj]
  change mode.toNat = 0 ∨ mode.toNat = 1 ∨ mode.toNat = 2 ∨ mode.toNat = 3
  omega

theorem takes_read {mode : UInt8} (hmode : mode ≤ 3) (rm : UInt8) (width : Width) :
    Takes (displacementSize mode rm) (Operand.read mode rm width) := by
  rcases eq_of_mode_le hmode with rfl | rfl | rfl | rfl
  · change Takes (if rm % 8 = 6 then 2 else 0) (if rm &&& 7 = 6 then _ else _)
    rw [Byte.and_seven]
    split
    · exact takes_word.map _
    · exact takes_pure _
  · exact takes_byte.map _
  · exact takes_word.map _
  · exact takes_pure _

end Operand

end Disasm8086
