import Mathlib.Data.Fintype.Basic
import Disasm8086.Encoding.Encode

/-!
# Bytes, words and their fields

Arithmetic of the parts an instruction is made of: a word and its two bytes are the same, a
sign-extended byte has the value of the byte, and an addressing byte is its three fields.
-/
namespace Disasm8086

/-- A property of a byte can be tested on all 256 of them. -/
instance decidableForallByte {P : UInt8 → Prop} [DecidablePred P] : Decidable (∀ b, P b) :=
  decidable_of_iff (∀ n : Fin 256, P (.ofFin n))
    ⟨fun h b => h b.toFin, fun h n => h (.ofFin n)⟩

namespace Byte

/-- The low three bits. -/
theorem and_seven (b : UInt8) : b &&& 7 = b % 8 := by
  rw [← UInt8.toNat_inj, UInt8.toNat_and, UInt8.toNat_mod]
  exact Nat.and_two_pow_sub_one_eq_mod b.toNat 3

theorem and_seven_lt (b : UInt8) : b &&& 7 < 8 := by
  rw [and_seven]
  exact UInt8.mod_lt b (by decide)

theorem and_seven_of_lt {b : UInt8} (h : b < 8) : b &&& 7 = b := by
  rw [and_seven]
  exact UInt8.mod_eq_of_lt h

end Byte

namespace Word

theorem toNat_ofBytes (low high : UInt8) :
    (ofBytes low high).toNat = low.toNat + 256 * high.toNat := by
  have hlow := low.toNat_lt
  have hhigh := high.toNat_lt
  have hshift : high.toNat <<< 8 = 256 * high.toNat := by
    rw [Nat.shiftLeft_eq]
    omega
  have hmod : high.toNat <<< 8 % 2 ^ 16 = high.toNat <<< 8 := Nat.mod_eq_of_lt (by omega)
  have hor := Nat.shiftLeft_add_eq_or_of_lt (i := 8) (b := low.toNat) hlow high.toNat
  simp only [ofBytes, UInt16.toNat_or, UInt16.toNat_shiftLeft, UInt8.toNat_toUInt16]
  change high.toNat <<< 8 % 2 ^ 16 ||| low.toNat = _
  rw [hmod, ← hor]
  omega

theorem toNat_high (value : UInt16) : (value >>> 8).toUInt8.toNat = value.toNat / 256 := by
  have h := value.toNat_lt
  simp only [UInt16.toNat_toUInt8, UInt16.toNat_shiftRight]
  change value.toNat >>> 8 % 256 = _
  rw [Nat.shiftRight_eq_div_pow]
  omega

theorem ofBytes_toBytes (value : UInt16) :
    ofBytes value.toUInt8 (value >>> 8).toUInt8 = value := by
  rw [← UInt16.toNat_inj, toNat_ofBytes, UInt16.toNat_toUInt8, toNat_high]
  omega

theorem toBytes_ofBytes (low high : UInt8) : toBytes (ofBytes low high) = [low, high] := by
  have hlow := low.toNat_lt
  have hhigh := high.toNat_lt
  have hfirst : (ofBytes low high).toUInt8 = low := by
    rw [← UInt8.toNat_inj, UInt16.toNat_toUInt8, toNat_ofBytes]
    omega
  have hsecond : (ofBytes low high >>> 8).toUInt8 = high := by
    rw [← UInt8.toNat_inj, toNat_high, toNat_ofBytes]
    omega
  rw [toBytes, hfirst, hsecond]

/-- The value of a sign-extended byte, two's complement written out. -/
theorem toInt_signExtend (byte : UInt8) : (signExtend byte).toInt =
    if byte.toNat < 128 then (byte.toNat : Int) else byte.toNat - 256 := by
  have hlt := byte.toNat_lt
  have h : byte.toInt8.toInt = Int.bmod byte.toNat 256 := BitVec.toInt_eq_toNat_bmod _
  rw [signExtend, Int8.toInt_toInt16, h, Int.bmod]
  split <;> split <;> omega

theorem toNat_toUInt16 (value : Int16) : (value.toUInt16.toNat : Int) = value.toInt % 65536 := by
  have hlt := value.toUInt16.toNat_lt
  have h : value.toInt = Int.bmod value.toUInt16.toNat 65536 := BitVec.toInt_eq_toNat_bmod _
  have hmod := Int.bmod_emod (x := value.toUInt16.toNat) (m := 65536)
  omega

theorem signExtend_range (byte : UInt8) : -128 ≤ signExtend byte ∧ signExtend byte ≤ 127 := by
  have hlt := byte.toNat_lt
  have hvalue := toInt_signExtend byte
  simp only [Int16.le_iff_toInt_le]
  change -128 ≤ (signExtend byte).toInt ∧ (signExtend byte).toInt ≤ 127
  split at hvalue <;> omega

theorem toUInt16_signExtend_range (byte : UInt8) :
    (signExtend byte).toUInt16 < 0x80 ∨ 0xFF80 ≤ (signExtend byte).toUInt16 := by
  have hlt := byte.toNat_lt
  have hword := toNat_toUInt16 (signExtend byte)
  rw [toInt_signExtend] at hword
  simp only [UInt16.lt_iff_toNat_lt, UInt16.le_iff_toNat_le]
  change (signExtend byte).toUInt16.toNat < 128 ∨ 65408 ≤ (signExtend byte).toUInt16.toNat
  split at hword <;> omega

theorem toUInt8_signExtend (byte : UInt8) : (signExtend byte).toUInt16.toUInt8 = byte := by
  have hlt := byte.toNat_lt
  have hword := toNat_toUInt16 (signExtend byte)
  rw [toInt_signExtend] at hword
  rw [← UInt8.toNat_inj, UInt16.toNat_toUInt8]
  split at hword <;> omega

/-- A displacement between -128 and 127 is its low byte, sign-extended. -/
theorem signExtend_toUInt8 {value : Int16} (h : -128 ≤ value ∧ value ≤ 127) :
    signExtend value.toUInt16.toUInt8 = value := by
  simp only [Int16.le_iff_toInt_le] at h
  change -128 ≤ value.toInt ∧ value.toInt ≤ 127 at h
  have hword := toNat_toUInt16 value
  rw [← Int16.toInt_inj, toInt_signExtend, UInt16.toNat_toUInt8]
  split <;> omega

/-- The words that are their low byte, sign-extended: nine equal bits in front. -/
theorem toUInt16_signExtend_toUInt8 {value : UInt16} (h : value < 0x80 ∨ 0xFF80 ≤ value) :
    (signExtend value.toUInt8).toUInt16 = value := by
  simp only [UInt16.lt_iff_toNat_lt, UInt16.le_iff_toNat_le] at h
  change value.toNat < 128 ∨ 65408 ≤ value.toNat at h
  have hlt := value.toNat_lt
  have hword := toNat_toUInt16 (signExtend value.toUInt8)
  rw [toInt_signExtend, UInt16.toNat_toUInt8] at hword
  rw [← UInt16.toNat_inj]
  split at hword <;> omega

theorem signExtend_eq_iff {value : UInt16} :
    (signExtend value.toUInt8).toUInt16 = value ↔ value < 0x80 ∨ 0xFF80 ≤ value := by
  constructor
  · intro h
    rw [← h]
    exact toUInt16_signExtend_range value.toUInt8
  · exact toUInt16_signExtend_toUInt8

end Word

/-- The value needs no more bits than the width has. -/
def Width.Fits : Width → UInt16 → Prop
  | .byte, value => value < 0x100
  | .word, _ => True

namespace Width

theorem truncate_word (value : UInt16) : word.truncate value = value := by
  have hmask : (value &&& 0xFFFF).toNat = value.toNat % 65536 := by
    rw [UInt16.toNat_and]
    exact Nat.and_two_pow_sub_one_eq_mod value.toNat 16
  have hlt := value.toNat_lt
  rw [← UInt16.toNat_inj]
  change (value &&& 0xFFFF).toNat = _
  omega

theorem toNat_truncate_byte (value : UInt16) :
    (byte.truncate value).toNat = value.toNat % 256 := by
  change (value &&& 0xFF).toNat = _
  rw [UInt16.toNat_and]
  exact Nat.and_two_pow_sub_one_eq_mod value.toNat 8

theorem truncate_eq_self_iff {width : Width} {value : UInt16} :
    width.truncate value = value ↔ width.Fits value := by
  cases width with
  | byte =>
    have hlt := value.toNat_lt
    rw [← UInt16.toNat_inj, toNat_truncate_byte]
    change _ ↔ value.toNat < 256
    omega
  | word => simp [truncate_word, Fits]

theorem fits_toUInt16 (b : UInt8) : byte.Fits b.toUInt16 := b.toNat_lt

theorem toUInt16_toUInt8 {value : UInt16} (h : byte.Fits value) :
    value.toUInt8.toUInt16 = value := by
  change value.toNat < 256 at h
  rw [← UInt16.toNat_inj, UInt8.toNat_toUInt16, UInt16.toNat_toUInt8]
  omega

end Width

namespace ModRM

theorem toByte_ofByte : ∀ b : UInt8, (ofByte b).toByte = b := by
  decide +kernel

theorem reg_ofByte_lt (b : UInt8) : (ofByte b).reg < 8 :=
  Byte.and_seven_lt (b >>> 3)

theorem rm_ofByte_lt (b : UInt8) : (ofByte b).rm < 8 :=
  Byte.and_seven_lt b

theorem ofByte_toByte {mode reg rm : UInt8} (hmode : mode < 4) (hreg : reg < 8) (hrm : rm < 8) :
    ofByte (toByte ⟨mode, reg, rm⟩) = ⟨mode, reg, rm⟩ := by
  have h : ∀ m : Fin 4, ∀ g r : Fin 8, ofByte (toByte ⟨.ofNat m, .ofNat g, .ofNat r⟩) =
      ⟨.ofNat m, .ofNat g, .ofNat r⟩ := by
    decide +kernel
  simpa using h ⟨mode.toNat, hmode⟩ ⟨reg.toNat, hreg⟩ ⟨rm.toNat, hrm⟩

end ModRM

end Disasm8086
