/-!
# Depth of a pattern

Groups, repetitions, brackets, branches and sequences make a pattern deeper by one each; an atom
has depth zero.
-/
namespace Disasm8086.Command.Pattern

/-- A pattern is no deeper than this. -/
def depthLimit : Nat :=
  250

/-- The depth of parts in a row; a row of one part is that part. -/
def joinedDepth : List Nat → Nat
  | [] => 0
  | [depth] => depth
  | depths => depths.foldl max 0 + 1

end Disasm8086.Command.Pattern
