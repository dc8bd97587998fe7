/-!
# The addressing byte

Most instructions carry a byte with three fields: a two-bit mode, a three-bit `reg` field and a
three-bit `rm` field. The mode says whether `rm` is a register or a memory base and how many
displacement bytes follow.
-/
namespace Disasm8086

structure ModRM where
  mode : UInt8
  reg : UInt8
  rm : UInt8
  deriving DecidableEq, Repr

/-- The fields of an addressing byte, from the high bits down. -/
def ModRM.ofByte (byte : UInt8) : ModRM :=
  ⟨byte >>> 6, byte >>> 3 &&& 7, byte &&& 7⟩

/-- The addressing byte with these fields. -/
def ModRM.toByte (fields : ModRM) : UInt8 :=
  fields.mode <<< 6 ||| fields.reg <<< 3 ||| fields.rm

inductive AddressingMode where
  | memory
  | memoryDisplacement8
  | memoryDisplacement16
  | register
  deriving DecidableEq, Repr

namespace AddressingMode

def bits : AddressingMode → UInt8
  | .memory => 0b00
  | .memoryDisplacement8 => 0b01
  | .memoryDisplacement16 => 0b10
  | .register => 0b11

def all : List AddressingMode :=
  [.memory, .memoryDisplacement8, .memoryDisplacement16, .register]

def ofBits? (bits : UInt8) : Option AddressingMode :=
  all.find? (·.bits = bits)

/-- In mode `memory` this `rm` field stands for a bare address in place of a base. -/
def directAddress : UInt8 :=
  0b110

/-- The two mode bits of an addressing byte are always a mode. -/
theorem ofBits?_mode_ne_none (byte : UInt8) : ofBits? (ModRM.ofByte byte).mode ≠ none := by
  have hmode : (ModRM.ofByte byte).mode.toNat = byte.toNat / 64 := by
    change (byte >>> 6).toNat = _
    rw [UInt8.toNat_shiftRight]
    exact Nat.shiftRight_eq_div_pow byte.toNat 6
  have hlt := byte.toNat_lt
  generalize (ModRM.ofByte byte).mode = mode at hmode
  have hcases : mode = 0 ∨ mode = 1 ∨ mode = 2 ∨ mode = 3 := by
    simp only [← UInt8.toNat_inj]
    change mode.toNat = 0 ∨ mode.toNat = 1 ∨ mode.toNat = 2 ∨ mode.toNat = 3
    omega
  rcases hcases with rfl | rfl | rfl | rfl <;> decide

end AddressingMode

end Disasm8086
