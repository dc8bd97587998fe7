import Disasm8086.Proofs.Takes

/-!
# The window of a read

A read in a window of `n` bytes looks at these bytes and at nothing else. Where the same bytes, or
the same end, stand before two readers, it gives the same result and takes as many bytes,
whatever the positions are and whatever stands in front of the window or behind it.
-/
namespace Disasm8086

namespace Read

variable {α : Type} {first second : Reader}

/-- The results of a read from two readers are alike: both have taken `n` bytes, and they give the
same value or meet the same fault, which tells where the bytes ran out by the positions of the
readers. -/
inductive Alike (first second : Reader) :
    EStateM.Result Fault Reader α → EStateM.Result Fault Reader α → Prop where
  | ok (n : Nat) (a : α) : Alike first second (.ok a (first.skip n)) (.ok a (second.skip n))
  | endOfInput (n : Nat) : Alike first second
    (.error (.endOfInput (first.position + n)) (first.skip n))
    (.error (.endOfInput (second.position + n)) (second.skip n))
  | fault (n : Nat) {fault : Fault} (h : ∀ offset, fault ≠ .endOfInput offset) :
    Alike first second (.error fault (first.skip n)) (.error fault (second.skip n))

/-- What is alike behind bytes that both readers took is alike in front of them. -/
theorem Alike.of_skip {m : Nat} {result result' : EStateM.Result Fault Reader α}
    (h : Alike (first.skip m) (second.skip m) result result') :
    Alike first second result result' := by
  cases h with
  | ok n a =>
    rw [Reader.skip_skip, Reader.skip_skip]
    exact .ok (m + n) a
  | endOfInput n =>
    have hposition (reader : Reader) :
        (reader.skip m).position + n = reader.position + (m + n) := Nat.add_assoc ..
    rw [Reader.skip_skip, Reader.skip_skip, hposition, hposition]
    exact .endOfInput (m + n)
  | fault n h =>
    rw [Reader.skip_skip, Reader.skip_skip]
    exact .fault (m + n) h

theorem Within.alike {faults : Fault → Prop} {n : Nat} {read : Read α} (h : Within faults n read)
    (hwindow : first.rest.take n = second.rest.take n) :
    Alike first second (read first) (read second) := by
  induction h generalizing first second with
  | pure n a => exact .ok 0 a
  | throw n _ hend => exact .fault 0 hend
  | @byte n next _ _ ih =>
    obtain ⟨position, _ | ⟨b, rest⟩⟩ := first <;>
      obtain ⟨position', _ | ⟨b', rest'⟩⟩ := second
    · exact .endOfInput 0
    · simp at hwindow
    · simp at hwindow
    · simp only [List.take_succ_cons, List.cons.injEq] at hwindow
      obtain ⟨rfl, hrest⟩ := hwindow
      exact Alike.of_skip (m := 1) (ih b hrest)
  | @word n next _ ih =>
    -- A word is looked at as a whole, so a single byte before both readers is their end.
    obtain ⟨position, _ | ⟨low, _ | ⟨high, rest⟩⟩⟩ := first <;>
      obtain ⟨position', _ | ⟨low', _ | ⟨high', rest'⟩⟩⟩ := second <;>
      simp at hwindow
    · exact .endOfInput 0
    · exact .endOfInput 0
    · obtain ⟨rfl, rfl, hrest⟩ := hwindow
      exact Alike.of_skip (m := 2) (ih (Word.ofBytes low high) hrest)

end Read

open Read

/-- Reading an instruction depends on the next six bytes alone, and reading an operand on the next
two: at any places of any two buffers where these are the same, the results are alike. -/
theorem Instruction.read_alike_of_window (x y : List UInt8) (p q : Nat) :
    ((x.drop p).take 6 = (y.drop q).take 6 →
      Alike ⟨p, x.drop p⟩ ⟨q, y.drop q⟩ (read ⟨p, x.drop p⟩) (read ⟨q, y.drop q⟩)) ∧
    ∀ (mode rm : UInt8) (width : Width), (x.drop p).take 2 = (y.drop q).take 2 →
      Alike ⟨p, x.drop p⟩ ⟨q, y.drop q⟩
        (Operand.read mode rm width ⟨p, x.drop p⟩) (Operand.read mode rm width ⟨q, y.drop q⟩) := by
  constructor
  · intro hwindow
    exact within_read.alike hwindow
  · intro mode rm width hwindow
    exact (Operand.within_read mode rm width).alike hwindow

/-- An addition of six bytes that has other bytes around it in each buffer, and the one byte left
for a displacement of two. -/
theorem Instruction.read_alike_of_window_add :
    (([0xFF, 0x81, 0x87, 0x34, 0x12, 0x78, 0x56, 0x90].drop 1).take 6 : List UInt8) =
      ([0x81, 0x87, 0x34, 0x12, 0x78, 0x56].drop 0).take 6 ∧
    Alike ⟨1, [0x81, 0x87, 0x34, 0x12, 0x78, 0x56, 0x90]⟩ ⟨0, [0x81, 0x87, 0x34, 0x12, 0x78, 0x56]⟩
      (read ⟨1, [0x81, 0x87, 0x34, 0x12, 0x78, 0x56, 0x90]⟩)
      (read ⟨0, [0x81, 0x87, 0x34, 0x12, 0x78, 0x56]⟩) ∧
    Alike ⟨2, [0x34]⟩ ⟨1, [0x34]⟩ (Operand.read 2 7 .word ⟨2, [0x34]⟩)
      (Operand.read 2 7 .word ⟨1, [0x34]⟩) := by
  refine ⟨rfl, ?_, ?_⟩
  · exact (read_alike_of_window [0xFF, 0x81, 0x87, 0x34, 0x12, 0x78, 0x56, 0x90]
      [0x81, 0x87, 0x34, 0x12, 0x78, 0x56] 1 0).1 rfl
  · exact (read_alike_of_window [0xFF, 0xFF, 0x34] [0x81, 0x34] 2 1).2 2 7 .word rfl

end Disasm8086
