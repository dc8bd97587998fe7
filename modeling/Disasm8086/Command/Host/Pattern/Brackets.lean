import Disasm8086.Command.Host.Pattern.Atom
import Disasm8086.Command.Host.Pattern.Depth

/-!
# Brackets of a pattern

Brackets stand for one character of a set. Their members are characters, ranges of characters,
kinds of characters and further brackets. An operator makes one set of what stands on its two
sides: their common characters, the difference, or those of one side only.
-/
namespace Disasm8086.Command.Pattern

/-- Brackets that are not closed yet. -/
structure Brackets where
  /-- Whether nothing but hyphens stands in them so far. -/
  atStart : Bool
  /-- The depth of what stands before the last operator. -/
  left : Option Nat
  /-- The depths of the members behind it. -/
  members : List Nat
  deriving DecidableEq, Repr

namespace Brackets

def start : Brackets :=
  ⟨true, none, []⟩

/-- A hyphen at the start is a member, and what follows is still at the start. -/
def addHyphen (brackets : Brackets) : Brackets :=
  { brackets with members := 0 :: brackets.members }

def add (brackets : Brackets) (depth : Nat) : Brackets :=
  { brackets with atStart := false, members := depth :: brackets.members }

/-- The depth of the members and operators. -/
def innerDepth (brackets : Brackets) : Nat :=
  match brackets.left with
  | none => joinedDepth brackets.members
  | some left => max left (joinedDepth brackets.members) + 1

/-- Operators join from the left. -/
def addOperator (brackets : Brackets) : Brackets :=
  ⟨false, some brackets.innerDepth, []⟩

def depth (brackets : Brackets) : Nat :=
  brackets.innerDepth + 1

end Brackets

/-- Names of kinds of characters, which brackets write between colons. -/
def kindNames : List String :=
  ["alnum", "alpha", "ascii", "blank", "cntrl", "digit", "graph", "lower", "print", "punct",
    "space", "upper", "word", "xdigit"]

/-- The text behind a name of a kind and `:]`. -/
def afterKindName? (text : List Char) : Option (List Char) :=
  let name := text.takeWhile (· ≠ ':')
  match text.drop name.length with
  | ':' :: ']' :: rest => if kindNames.contains (String.ofList name) then some rest else none
  | _ => none

/-- A named kind, behind its opening bracket: whether it is negated, and the text behind it. -/
def namedKind? : List Char → Option (Bool × List Char)
  | ':' :: '^' :: text => (afterKindName? text).map (true, ·)
  | ':' :: text => (afterKindName? text).map (false, ·)
  | _ => none

def namedKindFits (mode : Mode) (negated : Bool) : Bool :=
  if mode.unicode then !mode.caseless else !negated

/-- The member at the front of a text, a single one or an end of a range. -/
def member? (mode : Mode) (text : List Char) : Option (Atom × List Char) := do
  let (atom, text) ← match text with
    | [] => none
    | '\\' :: text => Atom.ofEscape? mode text
    | c :: text => some (.literal c false, text)
  if atom.fitsBrackets mode then some (atom, text) else none

/-- The text behind a member or a range. The ends of a range are characters in ascending order. -/
def afterRange? (mode : Mode) (text : List Char) : Option (List Char) := do
  let (first, text) ← member? mode text
  match mode.skip text with
  | '-' :: rest =>
    if (mode.peek rest).any fun c => c = ']' || c = '-' then some ('-' :: rest)
    else
      match first, ← member? mode (mode.skip rest) with
      | .literal first _, (.literal last _, rest) => if first ≤ last then some rest else none
      | _, _ => none
  | rest => some rest

/-- The text behind the begin of brackets. What is no member may be a byte that is no character, so
a mode of bytes has no negated brackets. -/
def afterBegin? (mode : Mode) (text : List Char) : Option (List Char) :=
  match mode.skip text with
  | '^' :: text => if mode.unicode then some text else none
  | text => some text

/-- What can stand in brackets. -/
inductive BracketSign where
  | hyphen
  | member
  | operator
  | opening
  | closing
  deriving DecidableEq, Repr

namespace Brackets

/-- The sign at the front of a text. At the start a hyphen is a member, and in front of all members
a closing bracket is one. -/
def sign? (mode : Mode) (brackets : Brackets) (text : List Char) :
    Option (BracketSign × List Char) :=
  match brackets.atStart, text with
  | true, '-' :: _ => (member? mode text).map fun (_, rest) => (.hyphen, rest)
  | _, ']' :: rest =>
    if brackets.atStart && brackets.members.isEmpty then
      (member? mode text).map fun (_, rest) => (.member, rest)
    else some (.closing, rest)
  | _, '[' :: rest =>
    match namedKind? rest with
    | some (negated, rest) => if namedKindFits mode negated then some (.member, rest) else none
    | none => (afterBegin? mode rest).map (.opening, ·)
  | _, '&' :: '&' :: rest => some (.operator, rest)
  | _, '-' :: '-' :: rest => some (.operator, rest)
  | _, '~' :: '~' :: rest => some (.operator, rest)
  | _, _ => (afterRange? mode text).map (.member, ·)

/-- The depth of brackets that stand in `outer` ones, and the text behind the outermost. Each of
`fuel` steps reads a sign. -/
def read? (mode : Mode) :
    (fuel : Nat) → Brackets → (outer : List Brackets) → List Char → Option (Nat × List Char)
  | 0, _, _, _ => none
  | fuel + 1, brackets, outer, text => do
    let (sign, text) ← brackets.sign? mode (mode.skip text)
    match sign, outer with
    | .hyphen, outer => read? mode fuel brackets.addHyphen outer text
    | .member, outer => read? mode fuel (brackets.add 0) outer text
    | .operator, outer => read? mode fuel brackets.addOperator outer text
    | .opening, outer => read? mode fuel .start (brackets :: outer) text
    | .closing, [] => some (brackets.depth, text)
    | .closing, parent :: outer => read? mode fuel (parent.add brackets.depth) outer text

/-- The depth of the brackets that a text, behind an opening one, begins with, and the rest. -/
def ofText? (mode : Mode) (text : List Char) : Option (Nat × List Char) := do
  let text ← afterBegin? mode text
  read? mode text.length .start [] text

end Brackets

end Disasm8086.Command.Pattern
