import Disasm8086.Numeral

/-!
# Faults

Why the bytes at some place are not an instruction of the subset.
-/
namespace Disasm8086

inductive Fault where
  /-- The bytes end inside an instruction, in the read that began at `offset`. -/
  | endOfInput (offset : Nat)
  | unknownOpcode (opcode : UInt8)
  | addressingMode (mode : UInt8)
  /-- The immediate group has no operation in the subset for this `reg` field. -/
  | groupOperation (reg : UInt8)
  deriving DecidableEq, Repr

def Fault.message : Fault → String
  | .endOfInput offset => "unexpected end of input at byte offset " ++ toString offset
  | .unknownOpcode opcode =>
    "unknown opcode 0x" ++ Numeral.padded 16 2 opcode.toNat ++
      " (" ++ Numeral.padded 2 8 opcode.toNat ++ ")"
  | .addressingMode mode => "invalid addressing mode 0b" ++ Numeral.padded 2 1 mode.toNat
  | .groupOperation reg => "unsupported immediate group operation /" ++ toString reg.toNat

end Disasm8086
