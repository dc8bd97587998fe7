import Mathlib.Data.Int.ModEq
import Disasm8086.Proofs.Reading
import Disasm8086.Proofs.Takes
import Disasm8086.Proofs.Text

/-!
# Displacements as they are shown

An operand is read from a mode and an `rm` field and the bytes behind them, and its text shows what
these bytes say: a bare address is the word that stands there, and the signed number behind a base
is the displacement that stands there, modulo 65536. So two operands with one base have the same
text exactly if their displacements are the same modulo 65536, however many bytes they are written
in.
-/
namespace Disasm8086

/-- A row of digits that reads as `n` and has no zero in front of another digit. -/
def Numeral.IsDecimal (digits : List Char) (n : Nat) : Prop :=
  Numeral.ofDigits? digits = some n ∧ (digits.head? = some '0' → digits = ['0'])

/-- The texts behind a base, each with the number that it stands for. -/
inductive Address.Suffix : String → Int → Prop where
  | zero : Suffix "" 0
  | plus {digits : List Char} {n : Nat} (h : Numeral.IsDecimal digits n) (hpos : 1 ≤ n)
    (hle : n ≤ 32767) : Suffix ("+" ++ String.ofList digits) n
  | minus {digits : List Char} {n : Nat} (h : Numeral.IsDecimal digits n) (hpos : 1 ≤ n)
    (hle : n ≤ 32768) : Suffix ("-" ++ String.ofList digits) (-n)

namespace Operand

/-- The word at the front of some bytes, low byte first. -/
def frontWord (bytes : List UInt8) : Nat :=
  (bytes.getD 0 0).toNat + 256 * (bytes.getD 1 0).toNat

/-- The byte at the front of some bytes, as a two's-complement number. -/
def frontSigned (bytes : List UInt8) : Int :=
  if (bytes.getD 0 0).toNat < 128 then (bytes.getD 0 0).toNat else (bytes.getD 0 0).toNat - 256

/-- The displacement that a mode finds at the front of some bytes. -/
def encodedDisplacement (mode : UInt8) (bytes : List UInt8) : Int :=
  if mode = 1 then frontSigned bytes else if mode = 2 then frontWord bytes else 0

/-- The register that the three bits of an `rm` field select. -/
def selectedRegister : Width → Fin 8 → String
  | .byte => ["al", "cl", "dl", "bl", "ah", "ch", "dh", "bh"].get
  | .word => ["ax", "cx", "dx", "bx", "sp", "bp", "si", "di"].get

/-- The base of an address that the three bits of an `rm` field select. -/
def selectedBase : Fin 8 → String :=
  ["bx+si", "bx+di", "bp+si", "bp+di", "si", "di", "bp", "bx"].get

/-- The texts that stand for a mode and an `rm` field with these bytes behind them. -/
inductive Shows (width : Width) (mode rm : UInt8) (bytes : List UInt8) : String → Prop where
  | register (hmode : mode = 3) :
    Shows width mode rm bytes (selectedRegister width (Fin.ofNat 8 rm.toNat))
  | direct (hmode : mode = 0) (hrm : rm % 8 = 6) {digits : List Char}
    (h : Numeral.IsDecimal digits (frontWord bytes)) :
    Shows width mode rm bytes ("[" ++ String.ofList digits ++ "]")
  | based (hmode : mode ≤ 2) (hbare : mode = 0 → rm % 8 ≠ 6) {suffix : String} {value : Int}
    (h : Address.Suffix suffix value)
    (hvalue : value ≡ encodedDisplacement mode bytes [ZMOD 65536]) :
    Shows width mode rm bytes ("[" ++ selectedBase (Fin.ofNat 8 rm.toNat) ++ suffix ++ "]")

end Operand

namespace Numeral

theorem head?_toDigits_ne_zero {n : Nat} (h : 0 < n) : (Nat.toDigits 10 n).head? ≠ some '0' := by
  induction n using Nat.strongRecOn with
  | _ n ih =>
    by_cases hlt : n < 10
    · rw [Nat.toDigits_of_lt_base hlt, List.head?_cons]
      have hdigit : ∀ n : Fin 10, 0 < n.val → some n.val.digitChar ≠ some '0' := by decide
      exact hdigit ⟨n, hlt⟩ h
    · rw [Nat.toDigits_of_base_le (by decide) (Nat.le_of_not_lt hlt),
        List.head?_append_of_ne_nil _ Nat.toDigits_ne_nil]
      exact ih (n / 10) (by omega) (by omega)

theorem isDecimal_toDigits (n : Nat) : IsDecimal (Nat.toDigits 10 n) n := by
  constructor
  · have hall : (Nat.toDigits 10 n).all Char.isDigit = true := by
      rw [List.all_eq_true]
      intro c hc
      exact isDigit_of_mem_toDigits hc
    have hne : (Nat.toDigits 10 n).isEmpty = false := by simp
    rw [ofDigits?, hne, hall, Nat.ofDigitChars_ten_toDigits]
    rfl
  · intro hzero
    obtain rfl | hpos := Nat.eq_zero_or_pos n
    · rfl
    · exact absurd hzero (head?_toDigits_ne_zero hpos)

theorem IsDecimal.isDigit {digits : List Char} {n : Nat} (h : IsDecimal digits n) :
    ∀ c ∈ digits, c.isDigit = true := by
  have hdigits := h.1
  rw [ofDigits?] at hdigits
  split at hdigits
  · rename_i hall
    simpa using (Bool.and_eq_true_iff.mp hall).2
  · cases hdigits

end Numeral

namespace Address

/-- The text of a displacement is a sign and the decimal of its magnitude, or nothing. -/
theorem suffix_displacementText (displacement : Int16) :
    Suffix (displacementText displacement) displacement.toInt := by
  have hlt := displacement.toInt_lt
  have hle := displacement.le_toInt
  have hdecimal := Numeral.isDecimal_toDigits displacement.toInt.natAbs
  unfold displacementText
  by_cases hzero : displacement = 0
  · rw [if_pos hzero, hzero]
    exact .zero
  have hne : displacement.toInt ≠ 0 := fun h => hzero (Int16.toInt_inj.mp h)
  rw [if_neg hzero, Nat.toString_eq_ofList_toDigits]
  by_cases hneg : displacement < 0
  · have hsign : displacement.toInt < 0 := Int16.lt_iff_toInt_lt.mp hneg
    have hvalue : displacement.toInt = -(displacement.toInt.natAbs : Int) := by omega
    rw [if_pos hneg]
    have h := Suffix.minus hdecimal (by omega) (by omega)
    rwa [← hvalue] at h
  · have hsign : ¬ displacement.toInt < 0 := fun h => hneg (Int16.lt_iff_toInt_lt.mpr h)
    have hvalue : displacement.toInt = (displacement.toInt.natAbs : Int) := by omega
    rw [if_neg hneg]
    have h := Suffix.plus hdecimal (by omega) (by omega)
    rwa [← hvalue] at h

/-- Displacements that are the same modulo 65536 are the same. -/
theorem eq_of_toInt_modEq {a b : Int16} (h : a.toInt ≡ b.toInt [ZMOD 65536]) : a = b := by
  have ha := a.toInt_lt
  have ha' := a.le_toInt
  have hb := b.toInt_lt
  have hb' := b.le_toInt
  rw [← Int16.toInt_inj]
  unfold Int.ModEq at h
  omega

end Address

namespace Operand

theorem frontWord_toBytes (value : UInt16) (more : List UInt8) :
    frontWord (Word.toBytes value ++ more) = value.toNat := by
  change value.toUInt8.toNat + 256 * (value >>> 8).toUInt8.toNat = _
  rw [← Word.toNat_ofBytes, Word.ofBytes_toBytes]

theorem frontSigned_cons {displacement : Int16}
    (h : -128 ≤ displacement ∧ displacement ≤ 127) (more : List UInt8) :
    frontSigned (displacement.toUInt16.toUInt8 :: more) = displacement.toInt := by
  have hvalue := Word.toInt_signExtend displacement.toUInt16.toUInt8
  rw [Word.signExtend_toUInt8 h] at hvalue
  exact hvalue.symm

section

variable {mode rm : UInt8} {width : Width} {reader later : Reader} {operand : Operand}

theorem completes_of_read (hread : Operand.read mode rm width reader = .ok operand later) :
    ∃ bytes, operand.Completes width mode (rm % 8) bytes ∧ reader.rest = bytes ++ later.rest := by
  obtain ⟨bytes, h, hrest, -⟩ := (accepts_read mode rm width reader later operand).mp hread
  rw [Byte.and_seven] at h
  exact ⟨bytes, h, hrest⟩

theorem eq_register_of_read (hread : Operand.read mode rm width reader = .ok operand later)
    (hmode : mode = 3) : operand = .reg ⟨rm % 8, width⟩ := by
  subst hmode
  obtain ⟨bytes, h, -⟩ := completes_of_read hread
  cases h with
  | register _ => rfl
  | direct h _ _ => cases h
  | bare h _ => cases h
  | short h _ => cases h
  | long h _ => cases h

theorem eq_direct_of_read (hread : Operand.read mode rm width reader = .ok operand later)
    (hmode : mode = 0) (hrm : rm % 8 = 6) :
    ∃ address, operand = .mem (.direct address) ∧ address.toNat = frontWord reader.rest := by
  subst hmode
  obtain ⟨bytes, h, hrest⟩ := completes_of_read hread
  cases h with
  | register h => cases h
  | direct _ _ address => exact ⟨address, rfl, by rw [hrest, frontWord_toBytes]⟩
  | bare _ h => exact absurd hrm h
  | short h _ => cases h
  | long h _ => cases h

/-- Behind a base stands the displacement that the bytes encode. -/
theorem eq_based_of_read (hread : Operand.read mode rm width reader = .ok operand later)
    (hmode : mode ≤ 2) (hbare : mode = 0 → rm % 8 ≠ 6) :
    ∃ displacement, operand = .mem (.based (rm % 8) displacement) ∧
      displacement.toInt ≡ encodedDisplacement mode reader.rest [ZMOD 65536] := by
  obtain ⟨bytes, h, hrest⟩ := completes_of_read hread
  rw [hrest]
  cases h with
  | register h =>
    rw [h] at hmode
    exact absurd hmode (by decide)
  | direct h hrm _ => exact absurd hrm (hbare h)
  | bare h _ =>
    subst h
    exact ⟨0, rfl, rfl⟩
  | @short h displacement hrange =>
    subst h
    refine ⟨displacement, rfl, ?_⟩
    change _ ≡ frontSigned (displacement.toUInt16.toUInt8 :: later.rest) [ZMOD 65536]
    rw [frontSigned_cons hrange]
  | long h displacement =>
    subst h
    refine ⟨displacement, rfl, ?_⟩
    change _ ≡ (frontWord (Word.toBytes displacement.toUInt16 ++ later.rest) : Int) [ZMOD 65536]
    rw [frontWord_toBytes, Word.toNat_toUInt16]
    exact (Int.mod_modEq _ _).symm

theorem mode_le_of_read (hread : Operand.read mode rm width reader = .ok operand later) :
    mode ≤ 3 := by
  obtain ⟨bytes, h, -⟩ := completes_of_read hread
  have hlt := UInt8.lt_iff_toNat_lt.mp h.mode_lt
  exact UInt8.le_iff_toNat_le.mpr (Nat.le_of_lt_succ hlt)

theorem text_based (rm : UInt8) (displacement : Int16) :
    (Operand.mem (.based (rm % 8) displacement)).text =
      "[" ++ selectedBase (Fin.ofNat 8 rm.toNat) ++ Address.displacementText displacement ++
        "]" := by
  have hbase : ∀ field : Fin 8, Address.bases[field] = selectedBase field := by decide
  rw [← hbase]
  simp [text, Address.text, Address.base]

theorem text_direct (address : UInt16) : (Operand.mem (.direct address)).text =
    "[" ++ String.ofList (Nat.toDigits 10 address.toNat) ++ "]" := by
  rw [← Nat.toString_eq_ofList_toDigits]
  rfl

theorem text_register (rm : UInt8) (width : Width) :
    (Operand.reg ⟨rm % 8, width⟩).text = selectedRegister width (Fin.ofNat 8 rm.toNat) := by
  have hname : ∀ field : Fin 8, (Register.names width)[field] = selectedRegister width field := by
    cases width <;> decide
  rw [← hname]
  simp [text, Register.name]

/-- A text between brackets that is a decimal has no base in it. -/
theorem text_based_ne_decimal (rm : UInt8) (displacement : Int16) {digits : List Char} {n : Nat}
    (h : Numeral.IsDecimal digits n) : (Operand.mem (.based (rm % 8) displacement)).text ≠
      "[" ++ String.ofList digits ++ "]" := by
  have hletters : ∀ field : Fin 8,
      (selectedBase field).toList.any (fun c => !c.isDigit) = true := by decide
  obtain ⟨c, hmem, hc⟩ := List.any_eq_true.mp (hletters (Fin.ofNat 8 rm.toNat))
  rw [Bool.not_eq_true'] at hc
  intro htext
  rw [text_based] at htext
  have hchars : (selectedBase (Fin.ofNat 8 rm.toNat)).toList ++
      (Address.displacementText displacement).toList ++ [']'] = digits ++ [']'] := by
    simpa using congrArg String.toList htext
  have hdigits := List.append_cancel_right hchars
  have hdigit := h.isDigit c (hdigits ▸ List.mem_append_left _ hmem)
  rw [hc] at hdigit
  cases hdigit

theorem shows_of_read (hread : Operand.read mode rm width reader = .ok operand later) :
    Shows width mode rm reader.rest operand.text := by
  have hmode := mode_le_of_read hread
  by_cases hregister : mode = 3
  · rw [eq_register_of_read hread hregister, text_register]
    exact .register hregister
  by_cases hdirect : mode = 0 ∧ rm % 8 = 6
  · obtain ⟨address, rfl, haddress⟩ := eq_direct_of_read hread hdirect.1 hdirect.2
    rw [text_direct, haddress]
    exact .direct hdirect.1 hdirect.2 (Numeral.isDecimal_toDigits _)
  · have hmemory : mode ≤ 2 := by
      rcases eq_of_mode_le hmode with rfl | rfl | rfl | rfl
      · decide
      · decide
      · decide
      · exact absurd rfl hregister
    have hbare : mode = 0 → rm % 8 ≠ 6 := fun h h' => hdirect ⟨h, h'⟩
    obtain ⟨displacement, rfl, hvalue⟩ := eq_based_of_read hread hmemory hbare
    rw [text_based]
    exact .based hmemory hbare (Address.suffix_displacementText displacement) hvalue

/-- A memory operand is shown as a number exactly if it is a bare address. -/
theorem exists_decimal_text_iff (hread : Operand.read mode rm width reader = .ok operand later)
    (hmode : mode ≤ 2) : (∃ digits n, Numeral.IsDecimal digits n ∧
      operand.text = "[" ++ String.ofList digits ++ "]") ↔ mode = 0 ∧ rm % 8 = 6 := by
  constructor
  · rintro ⟨digits, n, hdecimal, htext⟩
    by_contra hdirect
    have hbare : mode = 0 → rm % 8 ≠ 6 := fun h h' => hdirect ⟨h, h'⟩
    obtain ⟨displacement, rfl, -⟩ := eq_based_of_read hread hmode hbare
    exact text_based_ne_decimal rm displacement hdecimal htext
  · rintro ⟨hzero, hrm⟩
    obtain ⟨address, rfl, -⟩ := eq_direct_of_read hread hzero hrm
    exact ⟨_, _, Numeral.isDecimal_toDigits _, text_direct address⟩

/-- Behind one base, texts are the same if the displacements are. -/
theorem text_based_eq_iff (rm : UInt8) (a b : Int16) :
    (Operand.mem (.based rm a)).text = (Operand.mem (.based rm b)).text ↔
      a.toInt ≡ b.toInt [ZMOD 65536] := by
  constructor
  · intro htext
    have hchars := congrArg String.toList htext
    rw [toList_text, toList_text] at hchars
    have hview := View.chars_injective hchars
    simp only [view, View.based.injEq, true_and] at hview
    rw [hview]
  · intro hmod
    rw [Address.eq_of_toInt_modEq hmod]

theorem text_eq_text_iff_of_read
    (hread : Operand.read mode rm width reader = .ok operand later)
    {mode' rm' : UInt8} {width' : Width} {reader' later' : Reader} {operand' : Operand}
    (hread' : Operand.read mode' rm' width' reader' = .ok operand' later')
    (hmode : mode ≤ 2) (hmode' : mode' ≤ 2) (hrm : rm % 8 = rm' % 8)
    (hbare : mode = 0 ∨ mode' = 0 → rm % 8 ≠ 6) :
    operand.text = operand'.text ↔ encodedDisplacement mode reader.rest ≡
      encodedDisplacement mode' reader'.rest [ZMOD 65536] := by
  obtain ⟨a, rfl, ha⟩ := eq_based_of_read hread hmode fun h => hbare (.inl h)
  obtain ⟨b, rfl, hb⟩ := eq_based_of_read hread' hmode' fun h => hrm ▸ hbare (.inr h)
  rw [hrm, text_based_eq_iff]
  constructor
  · intro h
    exact ha.symm.trans (h.trans hb)
  · intro h
    exact ha.trans (h.trans hb.symm)

end

/-- Reading an operand and what its text shows, for every mode, `rm` field and width and wherever
the reader stands. The mode exists and its displacement bytes are there exactly if reading
succeeds, which takes just these bytes. The text shows the register or the displacement that they
encode, and is a number alone exactly for a bare address. Two of these operands with one base have
the same text exactly if they encode the same displacement modulo 65536. -/
theorem read_shows_displacement (mode rm : UInt8) (width : Width) (reader : Reader) :
    ((∃ operand later, Operand.read mode rm width reader = .ok operand later) ↔
      mode ≤ 3 ∧ displacementSize mode rm ≤ reader.rest.length) ∧
    ∀ operand later, Operand.read mode rm width reader = .ok operand later →
      later = reader.skip (displacementSize mode rm) ∧
      Shows width mode rm reader.rest operand.text ∧
      (mode ≤ 2 → ((∃ digits n, Numeral.IsDecimal digits n ∧
        operand.text = "[" ++ String.ofList digits ++ "]") ↔ mode = 0 ∧ rm % 8 = 6)) ∧
      ∀ mode' rm' width' reader' operand' later',
        Operand.read mode' rm' width' reader' = .ok operand' later' →
        mode ≤ 2 → mode' ≤ 2 → rm % 8 = rm' % 8 → (mode = 0 ∨ mode' = 0 → rm % 8 ≠ 6) →
        (operand.text = operand'.text ↔ encodedDisplacement mode reader.rest ≡
          encodedDisplacement mode' reader'.rest [ZMOD 65536]) := by
  constructor
  · constructor
    · rintro ⟨operand, later, hread⟩
      have hmode := mode_le_of_read hread
      exact ⟨hmode, ((takes_read hmode rm width).exists_ok_iff reader).mp ⟨operand, later, hread⟩⟩
    · rintro ⟨hmode, hsize⟩
      exact ((takes_read hmode rm width).exists_ok_iff reader).mpr hsize
  · intro operand later hread
    refine ⟨(takes_read (mode_le_of_read hread) rm width).later_eq hread, shows_of_read hread,
      exists_decimal_text_iff hread, ?_⟩
    intro mode' rm' width' reader' operand' later' hread'
    exact text_eq_text_iff_of_read hread hread'

/-- The byte `80` behind `bp` is not the word `0080`, an `rm` field counts by three bits, and a
register takes no byte. -/
theorem read_shows_displacement_bp :
    (Operand.read 1 6 .word ⟨0, [0x80]⟩ = .ok (.mem (.based 6 (-128))) ⟨1, []⟩ ∧
      Shows .word 1 6 [0x80] "[bp-128]") ∧
    (Operand.read 2 14 .byte ⟨3, [0x80, 0x00]⟩ = .ok (.mem (.based 6 128)) ⟨5, []⟩ ∧
      Shows .byte 2 14 [0x80, 0x00] "[bp+128]") ∧
    ("[bp-128]" = "[bp+128]" ↔
      encodedDisplacement 1 [0x80] ≡ encodedDisplacement 2 [0x80, 0x00] [ZMOD 65536]) ∧
    (Operand.read 3 13 .byte ⟨7, [0x80]⟩ = .ok (.reg ⟨5, .byte⟩) ⟨7, [0x80]⟩ ∧
      Shows .byte 3 13 [0x80] "ch") := by
  have hshort : Operand.read 1 6 .word ⟨0, [0x80]⟩ = .ok (.mem (.based 6 (-128))) ⟨1, []⟩ := rfl
  have hlong : Operand.read 2 14 .byte ⟨3, [0x80, 0x00]⟩ = .ok (.mem (.based 6 128)) ⟨5, []⟩ := rfl
  have hregister : Operand.read 3 13 .byte ⟨7, [0x80]⟩ = .ok (.reg ⟨5, .byte⟩) ⟨7, [0x80]⟩ := rfl
  have hshortText : (Operand.mem (.based 6 (-128))).text = "[bp-128]" := by decide +kernel
  have hlongText : (Operand.mem (.based 6 128)).text = "[bp+128]" := by decide +kernel
  obtain ⟨-, hshows, -, hsame⟩ := (read_shows_displacement 1 6 .word ⟨0, [0x80]⟩).2 _ _ hshort
  obtain ⟨-, hshows', -⟩ := (read_shows_displacement 2 14 .byte ⟨3, [0x80, 0x00]⟩).2 _ _ hlong
  obtain ⟨-, hname, -⟩ := (read_shows_displacement 3 13 .byte ⟨7, [0x80]⟩).2 _ _ hregister
  have heq := hsame _ _ _ _ _ _ hlong (by decide) (by decide) (by decide) (by decide)
  rw [hshortText] at hshows heq
  rw [hlongText] at hshows' heq
  exact ⟨⟨hshort, hshows⟩, ⟨hlong, hshows'⟩, heq, hregister, hname⟩

end Operand

end Disasm8086
