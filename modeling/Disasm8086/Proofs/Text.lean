import Std.Data.String.ToNat
import Mathlib.Data.Fintype.Basic
import Disasm8086.Instruction
import Disasm8086.Proofs.Bytes

/-!
# What a text shows

The view of an instruction is what its text shows: the mnemonic, the operands in the order of the
text and the size if it is stated. Register codes and `rm` fields count by their low three bits,
and an immediate is shown without its width. Two instructions have the same text exactly if they
have the same view.
-/
namespace Disasm8086

/-- The width is part of the name of a register, but not of an immediate. -/
inductive Operand.View where
  | reg (code : Fin 8) (width : Width)
  | direct (address : UInt16)
  | based (rm : Fin 8) (displacement : Int16)
  | imm (value : UInt16)
  deriving DecidableEq, Repr

@[ext] structure Instruction.View where
  mnemonic : String
  first : Operand.View
  second : Operand.View
  size : Option Width
  deriving DecidableEq, Repr

def Operand.view : Operand → View
  | .reg register => .reg (.ofNat 8 register.code.toNat) register.width
  | .mem (.direct address) => .direct address
  | .mem (.based rm displacement) => .based (.ofNat 8 rm.toNat) displacement
  | .imm immediate => .imm immediate.value

/-- The width of an immediate that is shown behind memory. -/
def Instruction.View.sizeOf : Operand → Operand → Option Width
  | .mem _, .imm immediate => some immediate.width
  | _, _ => none

/-- What a text with these operands shows. -/
def Instruction.View.ofOperands (mnemonic : String) (first second : Operand) : View :=
  ⟨mnemonic, first.view, second.view, sizeOf first second⟩

/-- What is left of a value at a width. -/
def Width.part (value : UInt16) : Width → UInt16
  | .byte => value % 256
  | .word => value

/-- An addition shows its second operand first if its direction says so. -/
def Instruction.view : Instruction → View
  | .mov dst src => .ofOperands "mov" dst src
  | .movImmediate dst value width => .ofOperands "mov" (.reg dst) (.imm ⟨width.part value, width⟩)
  | .add a b false => .ofOperands "add" a b
  | .add a b true => .ofOperands "add" b a
  | .sub dst imm => .ofOperands "sub" dst (.imm imm)
  | .cmp dst imm => .ofOperands "cmp" dst (.imm imm)

/-- The sign in front of the magnitude of a displacement. -/
def Address.displacementSign (displacement : Int16) : List Char :=
  if displacement = 0 then [] else if displacement < 0 then ['-'] else ['+']

/-- The digits of the magnitude of a displacement. -/
def Address.displacementDigits (displacement : Int16) : List Char :=
  if displacement = 0 then [] else Nat.toDigits 10 displacement.toInt.natAbs

/-- The displacement of magnitude one with the same sign, or zero. -/
def Address.unit (displacement : Int16) : Int16 :=
  if displacement = 0 then 0 else if displacement < 0 then -1 else 1

namespace Operand.View

/-- The characters of a text, from what it shows. -/
def chars : View → List Char
  | .reg code width => (Register.names width)[code].toList
  | .direct address => '[' :: (Nat.toDigits 10 address.toNat ++ [']'])
  | .based rm displacement =>
    '[' :: (Address.bases[rm].toList ++ Address.displacementSign displacement ++
      Address.displacementDigits displacement ++ [']'])
  | .imm value => Nat.toDigits 10 value.toNat

end Operand.View

theorem Address.toList_displacementText (displacement : Int16) :
    (displacementText displacement).toList =
      displacementSign displacement ++ displacementDigits displacement := by
  unfold displacementText displacementSign displacementDigits
  by_cases hzero : displacement = 0
  · simp [hzero]
  · by_cases hneg : displacement < 0 <;> simp [hzero, hneg]

/-- The text of an operand is a function of its view. -/
theorem Operand.toList_text (operand : Operand) : operand.text.toList = operand.view.chars := by
  match operand with
  | .reg register => rfl
  | .mem (.direct address) =>
    simp [text, Address.text, view, View.chars]
  | .mem (.based rm displacement) =>
    simp [text, Address.text, view, View.chars, Address.toList_displacementText, Address.base]
  | .imm immediate => simp [text, Immediate.text, view, View.chars]

theorem isDigit_of_mem_toDigits {c : Char} {n : Nat} (h : c ∈ Nat.toDigits 10 n) :
    c.isDigit = true :=
  Nat.isDigit_of_mem_toDigits (by decide) (by decide) h

theorem Address.isDigit_of_mem_displacementDigits {c : Char} {displacement : Int16}
    (h : c ∈ displacementDigits displacement) : c.isDigit = true := by
  unfold displacementDigits at h
  split at h
  · cases h
  · exact isDigit_of_mem_toDigits h

theorem Address.not_isDigit_of_mem_displacementSign {c : Char} {displacement : Int16}
    (h : c ∈ displacementSign displacement) : c.isDigit = false := by
  unfold displacementSign at h
  split at h
  · cases h
  · split at h
    · rw [List.mem_singleton.mp h]
      rfl
    · rw [List.mem_singleton.mp h]
      rfl

namespace Operand.View

/-- The characters of a text that are no digits. -/
def letters : View → List Char
  | .reg code width => (Register.names width)[code].toList
  | .direct _ => ['[', ']']
  | .based rm displacement =>
    '[' :: (Address.bases[rm].toList ++ Address.displacementSign displacement ++ [']'])
  | .imm _ => []

/-- The digits of a text that shows a number; a zero displacement has none. -/
def digits : View → List Char
  | .reg _ _ => []
  | .direct address => Nat.toDigits 10 address.toNat
  | .based _ displacement => Address.displacementDigits displacement
  | .imm value => Nat.toDigits 10 value.toNat

theorem not_isDigit_of_mem_name : ∀ (width : Width) (code : Fin 8),
    ∀ c ∈ (Register.names width)[code].toList, c.isDigit = false := by
  have hnames : ∀ (width : Width) (code : Fin 8),
      (Register.names width)[code].toList.all (fun c => !c.isDigit) = true := by
    intro width
    cases width <;> decide +kernel
  intro width code c hc
  simpa using List.all_eq_true.mp (hnames width code) c hc

theorem not_isDigit_of_mem_base : ∀ rm : Fin 8,
    ∀ c ∈ Address.bases[rm].toList, c.isDigit = false := by
  have hbases : ∀ rm : Fin 8,
      Address.bases[rm].toList.all (fun c => !c.isDigit) = true := by
    decide +kernel
  intro rm c hc
  simpa using List.all_eq_true.mp (hbases rm) c hc

/-- Between the letters of a text there is one place for its digits. -/
theorem exists_chars_eq (view : View) : ∃ before after, view.letters = before ++ after ∧
    view.chars = before ++ view.digits ++ after ∧ (∀ c ∈ before, c.isDigit = false) ∧
    (∀ c ∈ after, c.isDigit = false) ∧ ∀ c ∈ view.digits, c.isDigit = true := by
  cases view with
  | reg code width =>
    exact ⟨(Register.names width)[code].toList, [], by simp [letters], by simp [chars, digits],
      not_isDigit_of_mem_name width code, by simp, by simp [digits]⟩
  | direct address =>
    exact ⟨['['], [']'], rfl, by simp [chars, digits], List.forall_mem_singleton.mpr rfl,
      List.forall_mem_singleton.mpr rfl, fun c => isDigit_of_mem_toDigits⟩
  | based rm displacement =>
    refine ⟨'[' :: (Address.bases[rm].toList ++ Address.displacementSign displacement), [']'],
      rfl, by simp [chars, digits], ?_, List.forall_mem_singleton.mpr rfl,
      fun c => Address.isDigit_of_mem_displacementDigits⟩
    intro c hc
    rw [List.mem_cons, List.mem_append] at hc
    rcases hc with rfl | hc | hc
    · rfl
    · exact not_isDigit_of_mem_base rm c hc
    · exact Address.not_isDigit_of_mem_displacementSign hc
  | imm value =>
    exact ⟨[], [], rfl, by simp [chars, digits], by simp, by simp,
      fun c => isDigit_of_mem_toDigits⟩

theorem filter_isDigit_chars (view : View) :
    view.chars.filter (fun c => c.isDigit) = view.digits := by
  obtain ⟨before, after, -, hchars, hbefore, hafter, hdigits⟩ := view.exists_chars_eq
  have hb : before.filter (fun c => c.isDigit) = [] := by simpa using hbefore
  have ha : after.filter (fun c => c.isDigit) = [] := by simpa using hafter
  have hd : view.digits.filter (fun c => c.isDigit) = view.digits := by simpa using hdigits
  rw [hchars, List.filter_append, List.filter_append, hb, ha, hd, List.nil_append,
    List.append_nil]

theorem filter_not_isDigit_chars (view : View) :
    view.chars.filter (fun c => !c.isDigit) = view.letters := by
  obtain ⟨before, after, heq, hchars, hbefore, hafter, hdigits⟩ := view.exists_chars_eq
  have hb : before.filter (fun c => !c.isDigit) = before := by simpa using hbefore
  have ha : after.filter (fun c => !c.isDigit) = after := by simpa using hafter
  have hd : view.digits.filter (fun c => !c.isDigit) = [] := by simpa using hdigits
  rw [hchars, heq, List.filter_append, List.filter_append, hb, ha, hd, List.append_nil]

/-- A view with another number, which has the same letters. -/
def outline : View → View
  | .reg code width => .reg code width
  | .direct _ => .direct 0
  | .based rm displacement =>
    .based rm (Address.unit displacement)
  | .imm _ => .imm 0

def outlines : List View :=
  (List.finRange 8).flatMap (fun code => [.reg code .byte, .reg code .word]) ++
  (List.finRange 8).flatMap (fun rm => [.based rm 0, .based rm (-1), .based rm 1]) ++
  [.direct 0, .imm 0]

theorem outline_mem_outlines (view : View) : view.outline ∈ outlines := by
  cases view with
  | reg code width => cases width <;> simp [outline, outlines]
  | direct address => simp [outline, outlines]
  | based rm displacement =>
    by_cases hzero : displacement = 0
    · simp [outline, outlines, Address.unit, hzero]
    · by_cases hneg : displacement < 0 <;> simp [outline, outlines, Address.unit, hzero, hneg]
  | imm value => simp [outline, outlines]

theorem letters_outline (view : View) : view.outline.letters = view.letters := by
  cases view with
  | reg code width => rfl
  | direct address => rfl
  | based rm displacement =>
    by_cases hzero : displacement = 0
    · simp [outline, Address.unit, hzero]
    · by_cases hneg : displacement < 0 <;>
        simp [outline, letters, Address.displacementSign, Address.unit, hzero, hneg]
  | imm value => rfl

theorem eq_of_letters_eq : ∀ a ∈ outlines, ∀ b ∈ outlines, a.letters = b.letters → a = b := by
  decide +kernel

theorem outline_eq_of_letters_eq {a b : View} (h : a.letters = b.letters) :
    a.outline = b.outline := by
  apply eq_of_letters_eq _ a.outline_mem_outlines _ b.outline_mem_outlines
  rw [letters_outline, letters_outline, h]

theorem toDigits_inj {m n : Nat} : Nat.toDigits 10 m = Nat.toDigits 10 n ↔ m = n := by
  rw [← Nat.toList_repr, ← Nat.toList_repr, String.toList_inj, Nat.repr_inj]

/-- A displacement is its sign and its magnitude. -/
theorem eq_of_unit_eq {a b : Int16} (hunit : Address.unit a = Address.unit b)
    (hdigits : Address.displacementDigits a = Address.displacementDigits b) : a = b := by
  by_cases ha : a = 0
  · by_cases hb : b = 0
    · rw [ha, hb]
    · by_cases hneg : b < 0 <;> simp [Address.unit, ha, hb, hneg] at hunit
  by_cases hb : b = 0
  · by_cases hneg : a < 0 <;> simp [Address.unit, ha, hb, hneg] at hunit
  simp only [Address.displacementDigits, if_neg ha, if_neg hb, toDigits_inj] at hdigits
  have hneg : a < 0 ↔ b < 0 := by
    by_cases ha' : a < 0 <;> by_cases hb' : b < 0 <;>
      simp [Address.unit, ha, hb, ha', hb'] at hunit ⊢
  rw [Int16.lt_iff_toInt_lt, Int16.lt_iff_toInt_lt, Int16.toInt_zero] at hneg
  rw [← Int16.toInt_inj]
  omega

/-- A text shows one view only. -/
theorem chars_injective {a b : View} (h : a.chars = b.chars) : a = b := by
  have hletters : a.letters = b.letters := by
    rw [← filter_not_isDigit_chars, h, filter_not_isDigit_chars]
  have hdigits : a.digits = b.digits := by
    rw [← filter_isDigit_chars, h, filter_isDigit_chars]
  -- The letters tell what is shown but for the number, and the digits tell the number.
  have houtline := outline_eq_of_letters_eq hletters
  cases a with
  | reg code width =>
    cases b with
    | reg code' width' => exact houtline
    | direct _ => cases houtline
    | based _ _ => cases houtline
    | imm _ => cases houtline
  | direct address =>
    cases b with
    | reg _ _ => cases houtline
    | direct address' => rw [UInt16.toNat_inj.mp (toDigits_inj.mp hdigits)]
    | based _ _ => cases houtline
    | imm _ => cases houtline
  | based rm displacement =>
    cases b with
    | reg _ _ => cases houtline
    | direct _ => cases houtline
    | based rm' displacement' =>
      simp only [outline, based.injEq] at houtline
      rw [houtline.1, eq_of_unit_eq houtline.2 hdigits]
    | imm _ => cases houtline
  | imm value =>
    cases b with
    | reg _ _ => cases houtline
    | direct _ => cases houtline
    | based _ _ => cases houtline
    | imm value' => rw [UInt16.toNat_inj.mp (toDigits_inj.mp hdigits)]

end Operand.View

/-- A character that a terminal does not show, such as the end of a line. -/
def isControl (c : Char) : Bool :=
  c.toNat < 0x20 || 0x7F ≤ c.toNat && c.toNat < 0xA0

/-- The marks that stand between the operands of an instruction, and what no text holds. -/
def isMark (c : Char) : Bool :=
  c = ' ' || c = ',' || isControl c

theorem not_isDigit_of_isControl {c : Char} (h : isControl c = true) : c.isDigit = false := by
  have hzero : '0'.val.toNat = 0x30 := rfl
  have hnine : '9'.val.toNat = 0x39 := rfl
  simp only [isControl, Char.toNat, Bool.or_eq_true, Bool.and_eq_true, decide_eq_true_eq] at h
  rw [Char.isDigit, Bool.and_eq_false_iff, decide_eq_false_iff_not, decide_eq_false_iff_not,
    ge_iff_le, UInt32.le_iff_toNat_le, UInt32.le_iff_toNat_le, hzero, hnine]
  omega

theorem not_isDigit_of_isMark {c : Char} (h : isMark c = true) : c.isDigit = false := by
  simp only [isMark, Bool.or_eq_true, decide_eq_true_eq] at h
  rcases h with (rfl | rfl) | h
  · rfl
  · rfl
  · exact not_isDigit_of_isControl h

theorem not_mem_of_all {text : List Char} {c : Char}
    (h : text.all (fun c => !isMark c) = true) (hc : isMark c = true) : c ∉ text := by
  intro hmem
  have hmark := List.all_eq_true.mp h c hmem
  rw [hc] at hmark
  cases hmark

namespace Operand.View

theorem all_not_isMark_letters : ∀ view ∈ outlines,
    view.letters.all (fun c => !isMark c) = true := by
  decide +kernel

/-- No mark stands inside the text of an operand. -/
theorem not_mem_chars (view : View) {c : Char} (hc : isMark c = true) : c ∉ view.chars := by
  have hletters := not_mem_of_all (all_not_isMark_letters _ view.outline_mem_outlines) hc
  rw [letters_outline, ← filter_not_isDigit_chars] at hletters
  intro h
  exact hletters (List.mem_filter.mpr ⟨h, by rw [not_isDigit_of_isMark hc]; rfl⟩)

end Operand.View

namespace Instruction

def sizeChars : Option Width → List Char
  | some width => width.keyword.toList ++ [' ']
  | none => []

namespace View

def chars (view : View) : List Char :=
  view.mnemonic.toList ++ ' ' :: (sizeChars view.size ++ view.first.chars ++
    ',' :: ' ' :: view.second.chars)

end View

theorem truncate_eq_part (width : Width) (value : UInt16) :
    width.truncate value = width.part value := by
  cases width with
  | byte =>
    rw [← UInt16.toNat_inj, Width.toNat_truncate_byte]
    exact (UInt16.toNat_mod value 256).symm
  | word => exact Width.truncate_word value

theorem statedSize_eq_sizeOf (first second : Operand) :
    statedSize first second = View.sizeOf first second := by
  cases first <;> cases second <;> rfl

theorem view_eq_ofOperands (instruction : Instruction) : instruction.view =
    .ofOperands instruction.mnemonic instruction.operands.1 instruction.operands.2 := by
  cases instruction with
  | mov dst src => rfl
  | movImmediate dst value width =>
    rw [operands, Immediate.ofValue, truncate_eq_part]
    rfl
  | add a b direction => cases direction <;> rfl
  | sub dst imm => rfl
  | cmp dst imm => rfl

theorem toList_text (instruction : Instruction) :
    instruction.text.toList = instruction.view.chars := by
  have hsize (size : Option Width) : (sizeText size).toList = sizeChars size := by
    cases size with
    | none => rfl
    | some width => simp [sizeText, sizeChars]
  rw [view_eq_ofOperands]
  simp [text, View.ofOperands, View.chars, Operand.toList_text, hsize, statedSize_eq_sizeOf]

/-- No mark stands inside a mnemonic. -/
theorem not_mem_mnemonic (instruction : Instruction) {c : Char} (hc : isMark c = true) :
    c ∉ instruction.view.mnemonic.toList := by
  have hnames : ∀ name ∈ ["mov", "add", "sub", "cmp"],
      name.toList.all (fun c => !isMark c) = true := by
    decide
  apply not_mem_of_all _ hc
  apply hnames
  rw [view_eq_ofOperands]
  cases instruction <;> simp [View.ofOperands, mnemonic]

/-- A text splits in one way at its first mark of a kind. -/
theorem append_mark_inj {c : Char} {before before' after after' : List Char} (h : c ∉ before)
    (h' : c ∉ before') (he : before ++ c :: after = before' ++ c :: after') :
    before = before' ∧ after = after' := by
  induction before generalizing before' with
  | nil =>
    cases before' with
    | nil => exact ⟨rfl, (List.cons.inj he).2⟩
    | cons first before' => exact absurd ((List.cons.inj he).1 ▸ List.mem_cons_self) h'
  | cons first before ih =>
    cases before' with
    | nil => exact absurd ((List.cons.inj he).1 ▸ List.mem_cons_self) h
    | cons first' before' =>
      obtain ⟨hfirst, he⟩ := List.cons.inj he
      obtain ⟨hbefore, hafter⟩ := ih (fun hc => h (List.mem_cons_of_mem _ hc))
        (fun hc => h' (List.mem_cons_of_mem _ hc)) he
      exact ⟨by rw [hfirst, hbefore], hafter⟩

theorem not_mem_keyword (width : Width) {c : Char} (hc : isMark c = true) :
    c ∉ width.keyword.toList := by
  apply not_mem_of_all _ hc
  cases width <;> decide

/-- The only mark in front of the first operand is the blank behind a size keyword. -/
theorem not_mem_sizeChars_append {c : Char} (hc : isMark c = true) (hblank : c ≠ ' ')
    (size : Option Width) (first : Operand.View) : c ∉ sizeChars size ++ first.chars := by
  have hfirst := first.not_mem_chars hc
  cases size with
  | none => exact hfirst
  | some width =>
    have hkeyword := not_mem_keyword width hc
    simp only [sizeChars, List.mem_append, List.mem_singleton, not_or]
    exact ⟨⟨hkeyword, hblank⟩, hfirst⟩

/-- A blank in front of the comma ends a size keyword. -/
theorem sizeChars_append_inj {size size' : Option Width} {first first' : Operand.View}
    (h : sizeChars size ++ first.chars = sizeChars size' ++ first'.chars) :
    size = size' ∧ first = first' := by
  have hblank (view : Operand.View) : ' ' ∉ view.chars := view.not_mem_chars rfl
  have hkeyword (width : Width) : ' ' ∉ width.keyword.toList := not_mem_keyword width rfl
  cases size with
  | none =>
    cases size' with
    | none => exact ⟨rfl, Operand.View.chars_injective h⟩
    | some width =>
      apply absurd (hblank first)
      change first.chars = _ at h
      simp [h, sizeChars]
  | some width =>
    cases size' with
    | none =>
      apply absurd (hblank first')
      change _ = first'.chars at h
      simp [← h, sizeChars]
    | some width' =>
      simp only [sizeChars, List.append_assoc, List.singleton_append] at h
      obtain ⟨hwidth, hfirst⟩ := append_mark_inj (hkeyword width) (hkeyword width') h
      refine ⟨?_, Operand.View.chars_injective hfirst⟩
      revert hwidth
      cases width <;> cases width' <;> decide

theorem view_eq_of_text_eq {i j : Instruction} (h : i.text = j.text) : i.view = j.view := by
  rw [← String.toList_inj, toList_text, toList_text] at h
  -- The first blank ends the mnemonic, and the comma the first operand.
  obtain ⟨hmnemonic, h⟩ := append_mark_inj (i.not_mem_mnemonic rfl) (j.not_mem_mnemonic rfl) h
  obtain ⟨hfirst, h⟩ := append_mark_inj
    (not_mem_sizeChars_append rfl (by decide) i.view.size i.view.first)
    (not_mem_sizeChars_append rfl (by decide) j.view.size j.view.first) h
  obtain ⟨hsize, hfirst⟩ := sizeChars_append_inj hfirst
  have hsecond := Operand.View.chars_injective (List.cons.inj h).2
  exact View.ext (String.toList_inj.mp hmnemonic) hfirst hsecond hsize

/-- Two instructions have the same text exactly if they show the same mnemonic, the same operands
in the same order and the same size or none. -/
theorem text_eq_text_iff_view (i j : Instruction) : i.text = j.text ↔ i.view = j.view := by
  constructor
  · exact view_eq_of_text_eq
  · intro h
    rw [← String.toList_inj, toList_text, toList_text, h]

/-- A register code above seven, and a value that is wider than its register. -/
example : view (.movImmediate ⟨9, .byte⟩ 0x0105 .byte) =
    view (.mov (.reg ⟨1, .byte⟩) (.imm ⟨5, .word⟩)) := by
  decide

/-- The only mark of a text but for blanks is its comma. -/
theorem not_mem_text (instruction : Instruction) {c : Char} (hc : isMark c = true)
    (hblank : c ≠ ' ') (hcomma : c ≠ ',') : c ∉ instruction.text.toList := by
  have hfirst := not_mem_sizeChars_append hc hblank instruction.view.size instruction.view.first
  have hsecond := instruction.view.second.not_mem_chars hc
  rw [toList_text, View.chars, List.mem_append, List.mem_cons, List.mem_append, List.mem_cons,
    List.mem_cons]
  simp only [not_or]
  exact ⟨instruction.not_mem_mnemonic hc, hblank, hfirst, hcomma, hblank, hsecond⟩

theorem isControl_of_mem_text {instruction : Instruction} {c : Char}
    (h : c ∈ instruction.text.toList) : isControl c = false := by
  rw [← Bool.not_eq_true]
  intro hcontrol
  have hblank : c ≠ ' ' := by
    rintro rfl
    cases hcontrol
  have hcomma : c ≠ ',' := by
    rintro rfl
    cases hcontrol
  exact instruction.not_mem_text (by simp [isMark, hcontrol]) hblank hcomma h

/-- The text of an instruction is a single line. -/
theorem newline_not_mem_text (instruction : Instruction) : '\n' ∉ instruction.text.toList :=
  instruction.not_mem_text rfl (by decide) (by decide)

end Instruction

end Disasm8086
