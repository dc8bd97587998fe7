import Mathlib.Data.List.Basic
import Disasm8086.Proofs.Text

/-!
# Lines on a terminal

A line that is written to a terminal may set its style by codes that are not shown. A line of the
log shows a text behind a time stamp, from which a blank parts it.
-/
namespace Disasm8086.Terminal

/-- A text without the end of a line. -/
def IsLine (text : String) : Prop :=
  '\n' ∉ text.toList

instance (text : String) : Decidable (IsLine text) :=
  inferInstanceAs (Decidable (_ ∉ _))

theorem IsLine.append {text more : String} (h : IsLine text) (h' : IsLine more) :
    IsLine (text ++ more) := by
  rw [IsLine, String.toList_append, List.mem_append, not_or]
  exact ⟨h, h'⟩

def IsPrintable (text : String) : Prop :=
  ∀ c ∈ text.toList, isControl c = false

instance (text : String) : Decidable (IsPrintable text) :=
  List.decidableBAll _ text.toList

theorem isPrintable_append_iff {text more : String} :
    IsPrintable (text ++ more) ↔ IsPrintable text ∧ IsPrintable more := by
  simp only [IsPrintable, String.toList_append, List.forall_mem_append]

theorem IsPrintable.append {text more : String} (h : IsPrintable text) (h' : IsPrintable more) :
    IsPrintable (text ++ more) :=
  isPrintable_append_iff.mpr ⟨h, h'⟩

theorem IsPrintable.isLine {text : String} (h : IsPrintable text) : IsLine text := by
  intro hmem
  cases h _ hmem

theorem isPrintable_of_isDigit {digits : List Char} (h : ∀ c ∈ digits, c.isDigit = true) :
    IsPrintable (String.ofList digits) := by
  intro c hc
  rw [String.toList_ofList] at hc
  rw [← Bool.not_eq_true]
  intro hcontrol
  have hdigit := h c hc
  rw [not_isDigit_of_isControl hcontrol] at hdigit
  cases hdigit

theorem isPrintable_toString (n : Nat) : IsPrintable (toString n) := by
  rw [Nat.toString_eq_ofList_toDigits]
  exact isPrintable_of_isDigit fun c => isDigit_of_mem_toDigits

theorem isPrintable_text (instruction : Instruction) : IsPrintable instruction.text :=
  fun _ => Instruction.isControl_of_mem_text

/-- The character at the begin of a style code, which ends with the letter `m`. -/
def escape : Char :=
  '\x1b'

theorem IsPrintable.escape_not_mem {text : String} (h : IsPrintable text) :
    escape ∉ text.toList := by
  intro hmem
  cases h _ hmem

/-- The characters that are shown; `inCode` says that a style code has begun. -/
def shownChars (inCode : Bool) : List Char → List Char
  | [] => []
  | c :: rest =>
    if inCode then shownChars (c ≠ 'm') rest
    else if c = escape then shownChars true rest
    else c :: shownChars false rest

/-- What a line shows. -/
def shown (line : String) : String :=
  String.ofList (shownChars false line.toList)

/-- A line of the log with this text. -/
def Shows (line text : String) : Prop :=
  IsLine line ∧ ∃ stamp, ' ' ∉ stamp.toList ∧ shown line = stamp ++ " " ++ text

/-- What stands behind the first blank that a line shows. -/
def behindStamp (line : String) : List Char :=
  ((shown line).toList.dropWhile (· ≠ ' ')).tail

theorem Shows.behindStamp_eq {line text : String} (h : Shows line text) :
    behindStamp line = text.toList := by
  obtain ⟨-, stamp, hstamp, hshown⟩ := h
  have hblank : " ".toList = [' '] := rfl
  have hpass : ∀ c ∈ stamp.toList, decide (c ≠ ' ') = true := by
    intro c hc
    exact decide_eq_true fun he => hstamp (he ▸ hc)
  rw [behindStamp, hshown, String.toList_append, String.toList_append, List.append_assoc, hblank,
    List.dropWhile_append_of_pos hpass]
  rfl

/-- Characters that begin no code are shown. -/
theorem shownChars_append {text : List Char} (h : escape ∉ text) (rest : List Char) :
    shownChars false (text ++ rest) = text ++ shownChars false rest := by
  induction text with
  | nil => rfl
  | cons c text ih =>
    rw [List.mem_cons, not_or] at h
    rw [List.cons_append, shownChars, if_neg (by decide), if_neg (Ne.symm h.1), ih h.2]
    rfl

end Disasm8086.Terminal
