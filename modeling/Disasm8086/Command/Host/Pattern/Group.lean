import Disasm8086.Command.Host.Pattern.Depth
import Disasm8086.Command.Host.Pattern.Mode
import Disasm8086.Command.Host.Text.Alphanumeric

/-!
# Groups of a pattern

A group holds branches, and a branch is a row of parts. A group may have a name, which no other
group has, or flags for what stands in it. Flags without a group hold up to the end of the group
that they stand in.
-/
namespace Disasm8086.Command.Pattern

inductive Part where
  /-- Flags are a part that cannot be repeated. -/
  | flags
  | whole (depth : Nat)
  deriving DecidableEq, Repr

def Part.depth : Part → Nat
  | .flags => 0
  | .whole depth => depth

/-- A group that is not closed yet; the whole pattern counts as one. -/
structure Group where
  /-- The mode of the parts that follow. -/
  mode : Mode
  /-- The parts of the last branch, the last one first. -/
  parts : List Part
  /-- The depths of the branches before it. -/
  branches : List Nat
  deriving DecidableEq, Repr

namespace Group

def start (mode : Mode) : Group :=
  ⟨mode, [], []⟩

def add (group : Group) (depth : Nat) : Group :=
  { group with parts := .whole depth :: group.parts }

def addFlags (group : Group) (mode : Mode) : Group :=
  { group with mode, parts := .flags :: group.parts }

/-- Repeats the last part. -/
def repeated? (group : Group) : Option Group :=
  match group.parts with
  | .whole depth :: parts => some { group with parts := .whole (depth + 1) :: parts }
  | _ => none

def branchDepth (group : Group) : Nat :=
  joinedDepth (group.parts.map Part.depth)

def addBranch (group : Group) : Group :=
  { group with parts := [], branches := group.branchDepth :: group.branches }

/-- The depth of the branches. -/
def innerDepth (group : Group) : Nat :=
  joinedDepth (group.branchDepth :: group.branches)

def depth (group : Group) : Nat :=
  group.innerDepth + 1

end Group

/-- What an opening parenthesis begins. -/
inductive Opening where
  | group (mode : Mode)
  | named (name : List Char)
  | flags (mode : Mode)
  deriving DecidableEq, Repr

namespace Opening

def canBeginName (c : Char) : Bool :=
  c = '_' || Text.isAlphabetic c

def canContinueName (c : Char) : Bool :=
  c = '_' || c = '.' || c = '[' || c = ']' || Text.isAlphanumeric c

/-- A name up to the `>` that ends it. -/
def ofName? (text : List Char) : Option (Opening × List Char) :=
  match text.takeWhile (· ≠ '>'), text.dropWhile (· ≠ '>') with
  | c :: name, _ :: rest =>
    if canBeginName c && name.all canContinueName then some (.named (c :: name), rest) else none
  | _, _ => none

/-- Flags up to a `:`, behind which the group begins, or up to a `)`, if there are any. -/
def ofFlags? (mode : Mode) (text : List Char) : Option (Opening × List Char) := do
  match ← mode.withFlags? [] true text with
  | (mode, ':' :: rest) => some (.group mode, rest)
  | (mode, ')' :: rest) => if text.head? = some ')' then none else some (.flags mode, rest)
  | _ => none

/-- Reads on behind an opening parenthesis. -/
def ofText? (mode : Mode) (text : List Char) : Option (Opening × List Char) :=
  match mode.skip text with
  | '?' :: 'P' :: '<' :: text => ofName? text
  | '?' :: '<' :: text => ofName? text
  | '?' :: text => ofFlags? mode text
  | text => some (.group mode, text)

end Opening

end Disasm8086.Command.Pattern
