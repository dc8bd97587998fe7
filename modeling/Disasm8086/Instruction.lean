import Disasm8086.Operand

/-!
# Instructions

The instructions of the subset and their assembler text: the mnemonic, then two operands with a
comma between them. A size keyword stands before the first operand when the operands alone leave
the size open, which is the case for memory with an immediate.
-/
namespace Disasm8086

inductive Instruction where
  | mov (dst src : Operand)
  | movImmediate (dst : Register) (value : UInt16) (width : Width)
  /-- Addition of two operands; `direction` says that the text shows `b` first. -/
  | add (a b : Operand) (direction : Bool)
  | sub (dst : Operand) (imm : Immediate)
  | cmp (dst : Operand) (imm : Immediate)
  deriving DecidableEq, Repr

namespace Instruction

def mnemonic : Instruction → String
  | .mov .. | .movImmediate .. => "mov"
  | .add .. => "add"
  | .sub .. => "sub"
  | .cmp .. => "cmp"

/-- The operands in the order in which the text shows them. -/
def operands : Instruction → Operand × Operand
  | .mov dst src => (dst, src)
  | .movImmediate dst value width => (.reg dst, .imm (.ofValue value width))
  | .add a b false => (a, b)
  | .add a b true => (b, a)
  | .sub dst imm => (dst, .imm imm)
  | .cmp dst imm => (dst, .imm imm)

/-- The size that the text has to state, for memory with an immediate. -/
def statedSize : Operand → Operand → Option Width
  | .mem _, .imm immediate => some immediate.width
  | _, _ => none

/-- A stated size in front of the operand it belongs to. -/
def sizeText : Option Width → String
  | some width => width.keyword ++ " "
  | none => ""

def text (instruction : Instruction) : String :=
  let (first, second) := instruction.operands
  instruction.mnemonic ++ " " ++ sizeText (statedSize first second) ++
    first.text ++ ", " ++ second.text

end Instruction

end Disasm8086
