/-!
# Numerals

Natural numbers written in a positional base, with zeros in front up to a least number of digits,
and numbers read from digits.
-/
namespace Disasm8086.Numeral

/-- The digits of `n` in `base`, most significant first, at least `width` of them. -/
def padded (base width n : Nat) : String :=
  String.ofList ((Nat.toDigits base n).leftpad width '0')

/-- The number of a non-empty row of decimal digits. -/
def ofDigits? (digits : List Char) : Option Nat :=
  if !digits.isEmpty && digits.all Char.isDigit then some (Nat.ofDigitChars 10 digits 0) else none

end Disasm8086.Numeral
