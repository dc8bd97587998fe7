/-!
# Memory addresses

A memory operand is a bare sixteen-bit address, or a sum of base registers with a signed
displacement. The text puts either in brackets, in decimal, and leaves out a zero displacement.
-/
namespace Disasm8086

inductive Address where
  | direct : UInt16 → Address
  | based (rm : UInt8) (displacement : Int16)
  deriving DecidableEq, Repr

namespace Address

/-- Sums of base registers, in the order of the `rm` field. -/
def bases : Vector String 8 :=
  #v["bx+si", "bx+di", "bp+si", "bp+di", "si", "di", "bp", "bx"]

/-- The base selected by the low three bits of `rm`. -/
def base (rm : UInt8) : String :=
  bases[rm.toNat % 8]

/-- A displacement after its base: a sign and a magnitude, or nothing for zero. -/
def displacementText (displacement : Int16) : String :=
  if displacement = 0 then ""
  else (if displacement < 0 then "-" else "+") ++ toString displacement.toInt.natAbs

def text : Address → String
  | .direct address => "[" ++ toString address.toNat ++ "]"
  | .based rm displacement => "[" ++ base rm ++ displacementText displacement ++ "]"

end Address

end Disasm8086
