import Disasm8086.Numeral

/-!
# Numbers in a setting

A setting of the log may hold ranks of levels, codes of characters, and values that are numbers.
-/
namespace Disasm8086.Numeral

/-- The number of a row of decimal digits that may have a plus sign in front. -/
def ofDecimal? : List Char → Option Nat
  | '+' :: digits => ofDigits? digits
  | digits => ofDigits? digits

def hexDigit? (c : Char) : Option Nat :=
  if c.isDigit then some (c.toNat - '0'.toNat)
  else if 'a' ≤ c && c ≤ 'f' then some (c.toNat - 'a'.toNat + 10)
  else if 'A' ≤ c && c ≤ 'F' then some (c.toNat - 'A'.toNat + 10)
  else none

def isSign (c : Char) : Bool :=
  c = '+' || c = '-'

/-- A text without the sign in front of it. -/
def unsigned : List Char → List Char
  | c :: text => if isSign c then text else c :: text
  | [] => []

/-- Nothing, or the letter `e` and a row of digits that may have a sign. -/
def isExponent : List Char → Bool
  | [] => true
  | c :: text => (c = 'e' || c = 'E') && (ofDigits? (unsigned text)).isSome

/-- Names for what no digits write, in letters of either case. -/
def boundlessNames : List String :=
  ["inf", "infinity", "nan"]

/-- Whether a text writes a number: digits, with a point among or around them if need be, and
perhaps an exponent; or a name. It may have a sign in front. -/
def isReal (text : List Char) : Bool :=
  let text := unsigned text
  let whole := text.takeWhile Char.isDigit
  boundlessNames.contains (String.ofList text).toLower ||
    match text.drop whole.length with
    | '.' :: rest =>
      let part := rest.takeWhile Char.isDigit
      !(whole.isEmpty && part.isEmpty) && isExponent (rest.drop part.length)
    | rest => !whole.isEmpty && isExponent rest

end Disasm8086.Numeral
