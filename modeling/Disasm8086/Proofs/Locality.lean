import Disasm8086.Encoding.Decode

/-!
# Reads and their place

What a read does depends on the bytes that it takes. It does the same at another position, except
for the positions it tells. It does the same with more bytes behind, unless it ran out of input;
and it runs out of input inside its window, where at most one byte is left.
-/
namespace Disasm8086

variable {α : Type}

/-- The fault that the same bytes are when they stand `distance` further on. -/
def Fault.shift (distance : Nat) : Fault → Fault
  | .endOfInput offset => .endOfInput (distance + offset)
  | fault => fault

theorem Fault.shift_of_ne {fault : Fault} (h : ∀ offset, fault ≠ .endOfInput offset)
    (distance : Nat) : fault.shift distance = fault := by
  cases fault with
  | endOfInput offset => exact absurd rfl (h offset)
  | unknownOpcode opcode => rfl
  | addressingMode mode => rfl
  | groupOperation reg => rfl

@[simp] theorem Fault.shift_zero (fault : Fault) : fault.shift 0 = fault := by
  cases fault <;> simp [shift]

theorem Fault.shift_shift (fault : Fault) (first second : Nat) :
    (fault.shift first).shift second = fault.shift (second + first) := by
  cases fault <;> simp [shift, Nat.add_assoc]

namespace Reader

/-- The reader of the same bytes, `distance` further on. -/
def shift (distance : Nat) (reader : Reader) : Reader :=
  ⟨distance + reader.position, reader.rest⟩

/-- The reader with more bytes behind. -/
def extend (suffix : List UInt8) (reader : Reader) : Reader :=
  ⟨reader.position, reader.rest ++ suffix⟩

theorem Passes.position_add_length {reader later : Reader} (h : reader.Passes later) :
    later.position + later.rest.length = reader.position + reader.rest.length := by
  obtain ⟨taken, hrest, hposition⟩ := h
  rw [hrest, hposition, List.length_append]
  omega

end Reader

namespace Read

/-- A result with its positions moved. -/
def shifted (distance : Nat) : EStateM.Result Fault Reader α → EStateM.Result Fault Reader α
  | .ok a later => .ok a (later.shift distance)
  | .error fault later => .error (fault.shift distance) (later.shift distance)

theorem Stepwise.shift {read : Read α} (h : Stepwise read) (distance : Nat) (reader : Reader) :
    read (reader.shift distance) = shifted distance (read reader) := by
  induction h generalizing reader with
  | pure a => rfl
  | throw hfault =>
    change EStateM.Result.error _ _ = EStateM.Result.error _ _
    rw [Fault.shift_of_ne hfault]
  | byte _ ih =>
    obtain ⟨position, _ | ⟨b, rest⟩⟩ := reader
    · rfl
    · exact ih b ⟨position + 1, rest⟩
  | word _ ih =>
    obtain ⟨position, _ | ⟨low, _ | ⟨high, rest⟩⟩⟩ := reader
    · rfl
    · rfl
    · exact ih (Word.ofBytes low high) ⟨position + 2, rest⟩

/-- A read that runs out of input stands at the byte or word that it found too short. -/
theorem Stepwise.endOfInput {read : Read α} (h : Stepwise read) {reader later : Reader}
    {offset : Nat} (hread : read reader = .error (.endOfInput offset) later) :
    later.position = offset ∧ later.rest.length ≤ 1 := by
  induction h generalizing reader with
  | pure a => cases hread
  | throw hfault =>
    cases hread
    exact absurd rfl (hfault offset)
  | byte _ ih =>
    obtain ⟨position, _ | ⟨b, rest⟩⟩ := reader
    · cases hread
      simp
    · exact ih b hread
  | word _ ih =>
    obtain ⟨position, _ | ⟨low, _ | ⟨high, rest⟩⟩⟩ := reader
    · cases hread
      simp
    · cases hread
      simp
    · exact ih (Word.ofBytes low high) hread

theorem Stepwise.position_le {read : Read α} (h : Stepwise read) {position offset : Nat}
    {bytes : List UInt8} {later : Reader}
    (hread : read ⟨position, bytes⟩ = .error (.endOfInput offset) later) : position ≤ offset := by
  obtain ⟨taken, -, hposition⟩ := h.forward.of_error hread
  have hoffset := (h.endOfInput hread).1
  simp only at hposition
  omega

/-- A read in a window meets one of its own faults, or runs out of input at a byte or word that
begins two bytes before the end of the window or earlier. -/
theorem Within.error {faults : Fault → Prop} {n : Nat} {read : Read α} (h : Within faults n read)
    {reader later : Reader} {fault : Fault} (hread : read reader = .error fault later) :
    faults fault ∨ ∃ offset, fault = .endOfInput offset ∧ offset + 2 ≤ reader.position + n := by
  induction h generalizing reader with
  | pure _ a => cases hread
  | throw _ hfault _ =>
    cases hread
    exact .inl hfault
  | @byte _ next _ _ ih =>
    obtain ⟨position, _ | ⟨b, rest⟩⟩ := reader
    · cases hread
      exact .inr ⟨position, rfl, by simp only; omega⟩
    · have hnext : next b ⟨position + 1, rest⟩ = .error fault later := hread
      obtain hfault | ⟨offset, rfl, hle⟩ := ih b hnext
      · exact .inl hfault
      · exact .inr ⟨offset, rfl, by simp only at hle ⊢; omega⟩
  | @word _ next _ ih =>
    obtain ⟨position, _ | ⟨low, _ | ⟨high, rest⟩⟩⟩ := reader
    · cases hread
      exact .inr ⟨position, rfl, by simp only; omega⟩
    · cases hread
      exact .inr ⟨position, rfl, by simp only; omega⟩
    · have hnext : next (Word.ofBytes low high) ⟨position + 2, rest⟩ = .error fault later := hread
      obtain hfault | ⟨offset, rfl, hle⟩ := ih (Word.ofBytes low high) hnext
      · exact .inl hfault
      · exact .inr ⟨offset, rfl, by simp only at hle ⊢; omega⟩

/-- A read in a window takes no more than the window has. -/
theorem Within.position_after_le {faults : Fault → Prop} {n : Nat} {read : Read α}
    (h : Within faults n read) (reader : Reader) :
    (read.after reader).position ≤ reader.position + n := by
  induction h generalizing reader with
  | pure n _ => exact Nat.le_add_right _ n
  | throw n _ _ => exact Nat.le_add_right _ n
  | @byte n next _ _ ih =>
    obtain ⟨position, _ | ⟨b, rest⟩⟩ := reader
    · exact Nat.le_add_right _ _
    · have hnext := ih b ⟨position + 1, rest⟩
      change ((next b).after ⟨position + 1, rest⟩).position ≤ position + (n + 1)
      simp only at hnext
      omega
  | @word n next _ ih =>
    obtain ⟨position, _ | ⟨low, _ | ⟨high, rest⟩⟩⟩ := reader
    · exact Nat.le_add_right _ _
    · exact Nat.le_add_right _ _
    · have hnext := ih (Word.ofBytes low high) ⟨position + 2, rest⟩
      change ((next (Word.ofBytes low high)).after ⟨position + 2, rest⟩).position ≤
        position + (n + 2)
      simp only at hnext
      omega

/-- How `suffix` behind the bytes of a read changes its result: not at all, unless the read ran
out of input. Then two bytes more are enough for the byte or word that was too short. -/
inductive Extended (suffix : List UInt8) :
    EStateM.Result Fault Reader α → EStateM.Result Fault Reader α → Prop where
  | ok (a : α) (later : Reader) : Extended suffix (.ok a later) (.ok a (later.extend suffix))
  | fault {fault : Fault} (h : ∀ offset, fault ≠ .endOfInput offset) (later : Reader) :
    Extended suffix (.error fault later) (.error fault (later.extend suffix))
  | endOfInput {offset : Nat} {later : Reader} {result : EStateM.Result Fault Reader α}
    (h : 2 ≤ suffix.length → ∀ later', result ≠ .error (.endOfInput offset) later') :
    Extended suffix (.error (.endOfInput offset) later) result

theorem Stepwise.extended {read : Read α} (h : Stepwise read) (suffix : List UInt8)
    (reader : Reader) : Extended suffix (read reader) (read (reader.extend suffix)) := by
  induction h generalizing reader with
  | pure a => exact .ok a reader
  | throw hfault => exact .fault hfault reader
  | @byte next hnext ih =>
    obtain ⟨position, _ | ⟨b, rest⟩⟩ := reader
    · refine .endOfInput fun hlength later' he => ?_
      obtain _ | ⟨b, suffix⟩ := suffix
      · simp at hlength
      · change next b ⟨position + 1, suffix⟩ = _ at he
        have hle : position + 1 ≤ position := (hnext b).position_le he
        omega
    · exact ih b ⟨position + 1, rest⟩
  | @word next hnext ih =>
    obtain ⟨position, _ | ⟨low, _ | ⟨high, rest⟩⟩⟩ := reader
    · refine .endOfInput fun hlength later' he => ?_
      obtain _ | ⟨low, _ | ⟨high, suffix⟩⟩ := suffix
      · simp at hlength
      · simp at hlength
      · change next (Word.ofBytes low high) ⟨position + 2, suffix⟩ = _ at he
        have hle : position + 2 ≤ position := (hnext _).position_le he
        omega
    · refine .endOfInput fun hlength later' he => ?_
      obtain _ | ⟨high, suffix⟩ := suffix
      · simp at hlength
      · change next (Word.ofBytes low high) ⟨position + 2, suffix⟩ = _ at he
        have hle : position + 2 ≤ position := (hnext _).position_le he
        omega
    · exact ih (Word.ofBytes low high) ⟨position + 2, rest⟩

section

variable {read : Read α} {suffix : List UInt8} {reader later : Reader} {fault : Fault}

theorem Stepwise.ok_extend (h : Stepwise read) {a : α} (hread : read reader = .ok a later) :
    read (reader.extend suffix) = .ok a (later.extend suffix) := by
  have hextended := h.extended suffix reader
  rw [hread] at hextended
  generalize read (reader.extend suffix) = result at hextended
  cases hextended with
  | ok _ _ => rfl

theorem Stepwise.error_extend (h : Stepwise read) (hread : read reader = .error fault later)
    (hfault : ∀ offset, fault ≠ .endOfInput offset) :
    read (reader.extend suffix) = .error fault (later.extend suffix) := by
  have hextended := h.extended suffix reader
  rw [hread] at hextended
  generalize read (reader.extend suffix) = result at hextended
  cases hextended with
  | fault _ _ => rfl
  | @endOfInput offset _ _ _ => exact absurd rfl (hfault offset)

theorem Stepwise.endOfInput_extend (h : Stepwise read) {offset : Nat}
    (hread : read reader = .error (.endOfInput offset) later) (hsuffix : 2 ≤ suffix.length)
    (later' : Reader) : read (reader.extend suffix) ≠ .error (.endOfInput offset) later' := by
  have hextended := h.extended suffix reader
  rw [hread] at hextended
  generalize read (reader.extend suffix) = result at hextended
  cases hextended with
  | fault hfault _ => exact absurd rfl (hfault offset)
  | endOfInput hmore => exact hmore hsuffix later'

end

end Read

namespace Instruction

/-- Reading an instruction does not meet a mode that there is not. -/
theorem read_ne_addressingMode {reader later : Reader} {mode : UInt8} :
    read reader ≠ .error (.addressingMode mode) later := by
  intro hread
  obtain hrejects | ⟨offset, he, -⟩ := within_read.error hread
  · exact hrejects
  · cases he

/-- An instruction whose bytes run out has its opcode, and lacks bytes in its window. -/
theorem endOfInput_bounds {reader later : Reader} {offset : Nat} (hmore : reader.rest ≠ [])
    (hread : read reader = .error (.endOfInput offset) later) :
    reader.position < offset ∧ offset ≤ reader.position + 4 ∧
      offset ≤ reader.position + reader.rest.length ∧
      reader.position + reader.rest.length ≤ offset + 1 := by
  obtain ⟨position, _ | ⟨opcode, rest⟩⟩ := reader
  · exact absurd rfl hmore
  · have hopcode : readOpcode opcode ⟨position + 1, rest⟩ = .error (.endOfInput offset) later :=
      hread
    have hbehind := (stepwise_readOpcode opcode).position_le hopcode
    obtain hrejects | ⟨_, he, hwindow⟩ := within_read.error hread
    · exact hrejects.elim
    cases he
    obtain ⟨hoffset, hlength⟩ := stepwise_read.endOfInput hread
    have hend := (stepwise_read.forward.of_error hread).position_add_length
    simp only at hwindow hend ⊢
    omega

end Instruction

end Disasm8086
