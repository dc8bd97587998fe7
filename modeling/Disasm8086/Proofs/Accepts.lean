import Disasm8086.Proofs.Bytes
import Disasm8086.Reader

/-!
# What a read accepts

A read is described by the byte strings it takes for each result: it succeeds exactly where the
bytes in front of it begin with one of them, and stops behind it. The description of a sequence
of reads is put together from those of its parts.
-/
namespace Disasm8086.Read

variable {α β : Type} {read : Read α} {form : α → List UInt8 → Prop}

/-- A success with result `a` takes a byte string of `form a`, and every such byte string is
taken, wherever the reader stands and whatever follows. -/
def Accepts (read : Read α) (form : α → List UInt8 → Prop) : Prop :=
  ∀ reader later a, read reader = .ok a later ↔
    ∃ bytes, form a bytes ∧ reader.rest = bytes ++ later.rest ∧
      later.position = reader.position + bytes.length

theorem Accepts.congr {form' : α → List UInt8 → Prop} (h : Accepts read form)
    (hform : ∀ a bytes, form a bytes ↔ form' a bytes) : Accepts read form' := by
  intro reader later a
  simp only [h reader later a, hform]

theorem Accepts.run (h : Accepts read form) {a : α} {bytes : List UInt8} (ha : form a bytes)
    (position : Nat) (rest : List UInt8) :
    read ⟨position, bytes ++ rest⟩ = .ok a ⟨position + bytes.length, rest⟩ :=
  (h _ _ a).mpr ⟨bytes, ha, rfl, rfl⟩

/-- Accepted byte strings are a prefix code: two of them that begin one text are the same. -/
theorem Accepts.unique (h : Accepts read form) {a a' : α} {bytes bytes' rest rest' : List UInt8}
    (ha : form a bytes) (ha' : form a' bytes') (he : bytes ++ rest = bytes' ++ rest') :
    a = a' ∧ bytes = bytes' ∧ rest = rest' := by
  have hrun := h.run ha 0 rest
  rw [he, h.run ha' 0 rest'] at hrun
  simp only [EStateM.Result.ok.injEq, Reader.mk.injEq] at hrun
  obtain ⟨hresult, -, hrest⟩ := hrun
  subst hrest
  exact ⟨hresult.symm, List.append_cancel_right he, rfl⟩

theorem bind_eq_ok {next : α → Read β} {reader later : Reader} {b : β} :
    (read >>= next) reader = .ok b later ↔
      ∃ a middle, read reader = .ok a middle ∧ next a middle = .ok b later := by
  cases hread : read reader with
  | ok a middle =>
    rw [bind_of_ok hread]
    constructor
    · intro h
      exact ⟨a, middle, rfl, h⟩
    · intro h
      obtain ⟨_, _, he, h⟩ := h
      cases he
      exact h
  | error fault middle =>
    rw [bind_of_error hread]
    simp

theorem accepts_pure (a : α) : Accepts (pure a) fun b bytes => b = a ∧ bytes = [] := by
  rintro ⟨position, rest⟩ ⟨position', rest'⟩ b
  constructor
  · intro h
    cases h
    exact ⟨[], ⟨rfl, rfl⟩, rfl, rfl⟩
  · intro hform
    obtain ⟨_, ⟨rfl, rfl⟩, hrest, hposition⟩ := hform
    cases hrest
    cases hposition
    rfl

theorem accepts_throw (fault : Fault) : Accepts (throw fault : Read α) fun _ _ => False := by
  intro reader later a
  constructor
  · intro h
    cases h
  · intro hform
    obtain ⟨_, h, -⟩ := hform
    exact h.elim

theorem accepts_byte : Accepts byte fun b bytes => bytes = [b] := by
  rintro ⟨position, rest⟩ ⟨position', rest'⟩ b
  constructor
  · intro h
    cases rest with
    | nil => cases h
    | cons first rest =>
      cases h
      exact ⟨_, rfl, rfl, rfl⟩
  · intro hform
    obtain ⟨_, rfl, hrest, hposition⟩ := hform
    simp only at hrest hposition
    subst hrest hposition
    rfl

theorem accepts_word : Accepts word fun value bytes => bytes = Word.toBytes value := by
  rintro ⟨position, rest⟩ ⟨position', rest'⟩ value
  constructor
  · intro h
    match rest with
    | [] => cases h
    | [_] => cases h
    | low :: high :: rest =>
      cases h
      exact ⟨[low, high], (Word.toBytes_ofBytes low high).symm, rfl, rfl⟩
  · intro hform
    obtain ⟨_, rfl, hrest, hposition⟩ := hform
    simp only at hrest hposition
    subst hrest hposition
    change EStateM.Result.ok (Word.ofBytes _ _) _ = _
    rw [Word.ofBytes_toBytes]
    rfl

theorem Accepts.bind {next : α → Read β} {form' : α → β → List UInt8 → Prop}
    (h : Accepts read form) (h' : ∀ a, Accepts (next a) (form' a)) :
    Accepts (read >>= next) fun b bytes =>
      ∃ a first second, form a first ∧ form' a b second ∧ bytes = first ++ second := by
  intro reader later b
  rw [bind_eq_ok]
  constructor
  · intro hform
    obtain ⟨a, middle, hread, hnext⟩ := hform
    obtain ⟨first, hfirst, hrest, hposition⟩ := (h reader middle a).mp hread
    obtain ⟨second, hsecond, hrest', hposition'⟩ := (h' a middle later b).mp hnext
    refine ⟨first ++ second, ⟨a, first, second, hfirst, hsecond, rfl⟩, ?_, ?_⟩
    · rw [hrest, hrest', List.append_assoc]
    · rw [hposition', hposition, List.length_append, Nat.add_assoc]
  · intro hform
    obtain ⟨_, ⟨a, first, second, hfirst, hsecond, rfl⟩, hrest, hposition⟩ := hform
    rw [List.append_assoc] at hrest
    rw [List.length_append, ← Nat.add_assoc] at hposition
    refine ⟨a, ⟨reader.position + first.length, second ++ later.rest⟩, ?_, ?_⟩
    · exact (h reader _ a).mpr ⟨first, hfirst, hrest, rfl⟩
    · exact (h' a _ later b).mpr ⟨second, hsecond, rfl, hposition⟩

theorem Accepts.map (h : Accepts read form) (f : α → β) :
    Accepts (do return f (← read)) fun b bytes => ∃ a, form a bytes ∧ b = f a := by
  refine (h.bind fun a => accepts_pure (f a)).congr ?_
  intro b bytes
  constructor
  · intro hform
    obtain ⟨a, first, _, hfirst, ⟨rfl, rfl⟩, rfl⟩ := hform
    exact ⟨a, by rwa [List.append_nil], rfl⟩
  · intro hform
    obtain ⟨a, ha, rfl⟩ := hform
    exact ⟨a, bytes, [], ha, ⟨rfl, rfl⟩, (List.append_nil bytes).symm⟩

theorem accepts_number (width : Width) : Accepts (number width) fun value bytes =>
    width.Fits value ∧ bytes = width.toBytes value := by
  cases width with
  | byte =>
    refine (accepts_byte.map _).congr fun value bytes => ⟨?_, ?_⟩
    · intro hform
      obtain ⟨b, rfl, rfl⟩ := hform
      exact ⟨Width.fits_toUInt16 b, by simp [Width.toBytes]⟩
    · intro hform
      obtain ⟨h, rfl⟩ := hform
      exact ⟨value.toUInt8, rfl, (Width.toUInt16_toUInt8 h).symm⟩
  | word =>
    refine accepts_word.congr fun value bytes => ?_
    simp [Width.Fits, Width.toBytes]

/-- Behind a byte. -/
theorem accepts_byte_bind {next : UInt8 → Read β} {form' : UInt8 → β → List UInt8 → Prop}
    (h : ∀ b, Accepts (next b) (form' b)) :
    Accepts (byte >>= next) fun b bytes =>
      ∃ first rest, form' first b rest ∧ bytes = first :: rest := by
  refine (accepts_byte.bind h).congr ?_
  intro b bytes
  constructor
  · intro hform
    obtain ⟨first, _, second, rfl, hsecond, rfl⟩ := hform
    exact ⟨first, second, hsecond, rfl⟩
  · intro hform
    obtain ⟨first, rest, hrest, rfl⟩ := hform
    exact ⟨first, [first], rest, rfl, hrest, rfl⟩

end Disasm8086.Read
