import Disasm8086.Command.Host.Numeral
import Disasm8086.Command.Host.Pattern.Mode

/-!
# Atoms of a pattern

The smallest parts of a pattern. A pattern matches text, and it has no table of the characters of
every script. So a mode refuses an atom that would need such a table, or that would match a byte
which is no character.
-/
namespace Disasm8086.Command.Pattern

inductive Atom where
  /-- Stands for itself; `asByte` if it was written as the number of a byte. -/
  | literal (c : Char) (asByte : Bool)
  | any
  /-- The begin or end of a text or line. -/
  | edge
  | wordEdge
  /-- Digits, blanks or the characters of words, or all but these. -/
  | kind (negated : Bool)
  deriving DecidableEq, Repr

namespace Atom

/-- Whether a character is one of the 128 that are a byte each. -/
def isBasic (c : Char) : Bool :=
  c.toNat < 0x80

/-- Whether an atom may stand outside of brackets. -/
def fits (mode : Mode) : Atom → Bool
  | .literal c asByte => if mode.unicode then !mode.caseless else !asByte || isBasic c
  | .any => mode.unicode
  | .edge => true
  | .wordEdge => !mode.unicode
  | .kind negated => !mode.unicode && !negated

/-- Whether an atom may be a member of brackets, where it stands for single characters. -/
def fitsBrackets (mode : Mode) : Atom → Bool
  | .literal c _ => if mode.unicode then !mode.caseless else isBasic c
  | .any | .edge | .wordEdge => false
  | .kind negated => !mode.unicode && !negated

/-- The atom of a backslash and one character. A mark of the basic alphabet stands for itself. -/
def ofEscaped? : Char → Option Atom
  | 'a' => some (.literal '\x07' false)
  | 't' => some (.literal '\t' false)
  | 'n' => some (.literal '\n' false)
  | 'v' => some (.literal '\x0b' false)
  | 'f' => some (.literal '\x0c' false)
  | 'r' => some (.literal '\r' false)
  | 'A' | 'z' => some .edge
  | 'b' | 'B' | '<' | '>' => some .wordEdge
  | 'd' | 's' | 'w' => some (.kind false)
  | 'D' | 'S' | 'W' => some (.kind true)
  | c => if isBasic c && !c.isAlphanum then some (.literal c false) else none

/-- The number that `count` hexadecimal digits at the front of a text continue from `value`. -/
def hexadecimal? (mode : Mode) : (count value : Nat) → List Char → Option (Nat × List Char)
  | 0, value, text => some (value, text)
  | count + 1, value, text =>
    match mode.skip text with
    | [] => none
    | c :: text => do
      let digit ← Numeral.hexDigit? c
      hexadecimal? mode count (16 * value + digit) text

/-- The character whose number has `count` hexadecimal digits at the front of a text. -/
def ofNumber? (mode : Mode) (count : Nat) (asByte : Bool) (text : List Char) :
    Option (Atom × List Char) := do
  let (value, text) ← hexadecimal? mode count 0 text
  if value.isValidChar then some (.literal (.ofNat value) asByte, text) else none

/-- The atom at the front of the text behind a backslash. -/
def ofEscape? (mode : Mode) : List Char → Option (Atom × List Char)
  | [] => none
  | 'x' :: text => ofNumber? mode 2 true text
  | 'u' :: text => ofNumber? mode 4 false text
  | 'U' :: text => ofNumber? mode 8 false text
  | c :: text => (ofEscaped? c).map (·, text)

end Atom

end Disasm8086.Command.Pattern
