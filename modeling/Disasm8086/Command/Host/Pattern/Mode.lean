import Disasm8086.Command.Host.Text.Ranges

/-!
# Modes of a pattern

A mode says how the signs of a pattern are read. Flags in the groups of a pattern switch parts of
the mode on and off.
-/
namespace Disasm8086.Command.Pattern

inductive Flag where
  | caseless
  | lines
  | dotAll
  | swapGreed
  | unicode
  | carriageReturns
  | spaced
  deriving DecidableEq, Repr

def Flag.ofChar? : Char → Option Flag
  | 'i' => some .caseless
  | 'm' => some .lines
  | 's' => some .dotAll
  | 'U' => some .swapGreed
  | 'u' => some .unicode
  | 'R' => some .carriageReturns
  | 'x' => some .spaced
  | _ => none

/-- The flags that decide whether a text is a pattern; the other ones decide on matches only. -/
structure Mode where
  /-- A sign matches a character; else it matches a byte. -/
  unicode : Bool
  /-- A letter matches in either case. -/
  caseless : Bool
  /-- Blanks and comments may stand between signs. -/
  spaced : Bool
  deriving DecidableEq, Repr

namespace Mode

/-- The mode that a pattern begins in. -/
def initial : Mode :=
  ⟨true, false, false⟩

def set (mode : Mode) (flag : Flag) (on : Bool) : Mode :=
  match flag with
  | .unicode => { mode with unicode := on }
  | .caseless => { mode with caseless := on }
  | .spaced => { mode with spaced := on }
  | .lines | .dotAll | .swapGreed | .carriageReturns => mode

/-- Switches the flags at the front of a text, up to the `:` or `)` that ends them. A flag stands
there once. Behind a minus sign, of which there is one at most, flags are switched off. -/
def withFlags? (mode : Mode) (seen : List Flag) (on : Bool) :
    List Char → Option (Mode × List Char)
  | [] => none
  | ':' :: text => some (mode, ':' :: text)
  | ')' :: text => some (mode, ')' :: text)
  | '-' :: c :: text =>
    if on && c ≠ ':' && c ≠ ')' then mode.withFlags? seen false (c :: text) else none
  | c :: text => do
    let flag ← Flag.ofChar? c
    if seen.contains flag then none else (mode.set flag on).withFlags? (flag :: seen) on text

/-- The text behind blanks and comments. A comment goes from a `#` to the end of the line. -/
def afterBlanks (inComment : Bool) : List Char → List Char
  | [] => []
  | c :: text =>
    if inComment then afterBlanks (c ≠ '\n') text
    else if c = '#' then afterBlanks true text
    else if Text.isBlank c then afterBlanks false text
    else c :: text

/-- The text from its first sign on. -/
def skip (mode : Mode) (text : List Char) : List Char :=
  if mode.spaced then afterBlanks false text else text

/-- The character that a hyphen in brackets is judged by. One `#` counts as a blank here, and the
comment behind it does not. -/
def peek (mode : Mode) (text : List Char) : Option Char :=
  if mode.spaced then
    match text.dropWhile Text.isBlank with
    | '#' :: text => (text.dropWhile Text.isBlank).head?
    | text => text.head?
  else text.head?

end Mode

end Disasm8086.Command.Pattern
