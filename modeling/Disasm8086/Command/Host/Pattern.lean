import Disasm8086.Command.Host.Pattern.Brackets
import Disasm8086.Command.Host.Pattern.Group

/-!
# Patterns

A filter of the log may test a value of a span against a pattern, a regular expression. The command
has no spans, so that nothing is ever matched, but a filter with a text that is no pattern is
refused.
-/
namespace Disasm8086.Command.Pattern

/-- A pattern that is read up to some place. -/
structure Reading where
  group : Group
  /-- The groups around it, the innermost first. -/
  outer : List Group
  /-- The names of groups. -/
  names : List (List Char)
  deriving DecidableEq, Repr

namespace Reading

def start : Reading :=
  ⟨.start .initial, [], []⟩

def mode (reading : Reading) : Mode :=
  reading.group.mode

def add (reading : Reading) (depth : Nat) : Reading :=
  { reading with group := reading.group.add depth }

def addAtom? (reading : Reading) (atom : Atom) : Option Reading :=
  if atom.fits reading.mode then some (reading.add 0) else none

def addGroup (reading : Reading) (mode : Mode) : Reading :=
  { reading with group := .start mode, outer := reading.group :: reading.outer }

def addOpening? (reading : Reading) : Opening → Option Reading
  | .group mode => some (reading.addGroup mode)
  | .flags mode => some { reading with group := reading.group.addFlags mode }
  | .named name =>
    if reading.names.contains name then none
    else some { reading.addGroup reading.mode with names := name :: reading.names }

/-- Closes the group; the mode of the group around it is in force again. -/
def closeGroup? (reading : Reading) : Option Reading :=
  match reading.outer with
  | [] => none
  | parent :: outer =>
    some { reading with group := parent.add reading.group.depth, outer }

/-- Repeats the last part. A question mark directly behind makes the repetition lazy. -/
def repetition? (reading : Reading) (text : List Char) : Option (Reading × List Char) := do
  let group ← reading.group.repeated?
  some ({ reading with group }, if text.head? = some '?' then text.tail else text)

/-- Reads the sign `c` and what belongs to it of the text behind it. -/
def sign? (reading : Reading) (c : Char) (text : List Char) : Option (Reading × List Char) := do
  match c with
  | '(' =>
    let (opening, text) ← Opening.ofText? reading.mode text
    some (← reading.addOpening? opening, text)
  | ')' => some (← reading.closeGroup?, text)
  | '|' => some ({ reading with group := reading.group.addBranch }, text)
  | '[' =>
    let (depth, text) ← Brackets.ofText? reading.mode text
    some (reading.add depth, text)
  | '?' | '*' | '+' => reading.repetition? text
  | '{' => none
  | '\\' =>
    let (atom, text) ← Atom.ofEscape? reading.mode text
    some (← reading.addAtom? atom, text)
  | '.' => some (← reading.addAtom? .any, text)
  | '^' | '$' => some (← reading.addAtom? .edge, text)
  | c => some (← reading.addAtom? (.literal c false), text)

/-- Reads a text to its end. Each of `fuel` steps takes a sign, the last one nothing. -/
def read? (reading : Reading) (fuel : Nat) (text : List Char) : Option Reading :=
  match fuel, reading.mode.skip text with
  | 0, _ => none
  | _, [] => some reading
  | fuel + 1, c :: text => do
    let (reading, text) ← reading.sign? c text
    reading.read? fuel text

end Reading

/-- Whether a text is a pattern. -/
def isWellFormed (text : String) : Bool :=
  match Reading.start.read? (text.length + 1) text.toList with
  | some ⟨group, [], _⟩ => group.innerDepth ≤ depthLimit
  | _ => false

end Disasm8086.Command.Pattern
