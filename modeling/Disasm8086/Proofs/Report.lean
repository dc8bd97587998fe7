import Mathlib.Data.Fintype.Basic
import Disasm8086.Proofs.Platform

/-!
# Reports of errors

The report of a file that cannot be read, and of a file with a fault, as it is written to standard
error.
-/
namespace Disasm8086

namespace Fault

/-- The two hexadecimal digits of a byte. -/
def hexDigits (byte : UInt8) : List Char :=
  [(byte.toNat / 16).digitChar, (byte.toNat % 16).digitChar]

/-- The eight binary digits of a byte. -/
def bits (byte : UInt8) : List Char :=
  [7, 6, 5, 4, 3, 2, 1, 0].map fun place => if byte.toNat.testBit place then '1' else '0'

/-- A fault in words. -/
def words : Fault → String
  | .endOfInput offset => "unexpected end of input at byte offset " ++ toString offset
  | .unknownOpcode opcode =>
    "unknown opcode 0x" ++ String.ofList (hexDigits opcode) ++
      " (" ++ String.ofList (bits opcode) ++ ")"
  | .addressingMode mode =>
    "invalid addressing mode 0b" ++ String.ofList (Nat.toDigits 2 mode.toNat)
  | .groupOperation reg => "unsupported immediate group operation /" ++ toString reg.toNat

theorem padded_hexDigits (byte : UInt8) :
    Numeral.padded 16 2 byte.toNat = String.ofList (hexDigits byte) := by
  have h : ∀ byte : Fin 256, (Nat.toDigits 16 byte.val).leftpad 2 '0' =
      [(byte.val / 16).digitChar, (byte.val % 16).digitChar] := by
    decide +kernel
  exact congrArg String.ofList (h ⟨byte.toNat, byte.toNat_lt⟩)

theorem padded_bits (byte : UInt8) :
    Numeral.padded 2 8 byte.toNat = String.ofList (bits byte) := by
  have h : ∀ byte : Fin 256, (Nat.toDigits 2 byte.val).leftpad 8 '0' =
      [7, 6, 5, 4, 3, 2, 1, 0].map fun place => if byte.val.testBit place then '1' else '0' := by
    decide +kernel
  exact congrArg String.ofList (h ⟨byte.toNat, byte.toNat_lt⟩)

theorem padded_one (n : Nat) : Numeral.padded 2 1 n = String.ofList (Nat.toDigits 2 n) := by
  have hpos : 1 ≤ (Nat.toDigits 2 n).length := List.length_pos_iff.mpr Nat.toDigits_ne_nil
  rw [Numeral.padded, List.leftpad, Nat.sub_eq_zero_of_le hpos]
  rfl

theorem message_unknownOpcode (opcode : UInt8) : (unknownOpcode opcode).message =
    "unknown opcode 0x" ++ Numeral.padded 16 2 opcode.toNat ++
      " (" ++ Numeral.padded 2 8 opcode.toNat ++ ")" := rfl

theorem message_addressingMode (mode : UInt8) : (addressingMode mode).message =
    "invalid addressing mode 0b" ++ Numeral.padded 2 1 mode.toNat := rfl

theorem message_eq_words (fault : Fault) : fault.message = fault.words := by
  cases fault with
  | endOfInput offset => rfl
  | unknownOpcode opcode =>
    rw [message_unknownOpcode, padded_hexDigits, padded_bits]
    rfl
  | addressingMode mode =>
    rw [message_addressingMode, padded_one]
    rfl
  | groupOperation reg => rfl

end Fault

namespace Command

open Terminal

theorem isLine_hexDigits (byte : UInt8) : IsLine (String.ofList (Fault.hexDigits byte)) := by
  have h : ∀ n : Fin 16, '\n' ≠ n.val.digitChar := by decide
  have hbyte := byte.toNat_lt
  rw [IsLine, String.toList_ofList, Fault.hexDigits, List.mem_cons, List.mem_singleton, not_or]
  exact ⟨h ⟨byte.toNat / 16, by omega⟩, h ⟨byte.toNat % 16, by omega⟩⟩

theorem isLine_bits (byte : UInt8) : IsLine (String.ofList (Fault.bits byte)) := by
  apply (isPrintable_of_isDigit _).isLine
  intro c hc
  obtain ⟨place, -, rfl⟩ := List.mem_map.mp hc
  split
  · rfl
  · rfl

theorem isLine_message (fault : Fault) : IsLine fault.message := by
  rw [fault.message_eq_words]
  cases fault with
  | endOfInput offset =>
    have hwords : IsLine "unexpected end of input at byte offset " := by decide
    exact hwords.append ((isPrintable_toString offset).isLine)
  | unknownOpcode opcode =>
    have hwords : IsLine "unknown opcode 0x" := by decide
    have hopen : IsLine " (" := by decide
    have hclose : IsLine ")" := by decide
    have hopcode := (hwords.append (isLine_hexDigits opcode)).append hopen
    exact (hopcode.append (isLine_bits opcode)).append hclose
  | addressingMode mode =>
    have hwords : IsLine "invalid addressing mode 0b" := by decide
    have hbits : ∀ c ∈ Nat.toDigits 2 mode.toNat, c.isDigit = true :=
      fun c => Nat.isDigit_of_mem_toDigits (by decide) (by decide)
    exact hwords.append (isPrintable_of_isDigit hbits).isLine
  | groupOperation reg =>
    have hwords : IsLine "unsupported immediate group operation /" := by decide
    exact hwords.append (isPrintable_toString reg.toNat).isLine

theorem message_stop (stop : Stop) : stop.message = "failed to decode instruction " ++
    toString stop.index ++ " (byte offset " ++ toString stop.offset ++ ")" := rfl

theorem isLine_stop (stop : Stop) : IsLine stop.message := by
  have hwords : IsLine "failed to decode instruction " := by decide
  have hopen : IsLine " (byte offset " := by decide
  have hclose : IsLine ")" := by decide
  have hindex := (hwords.append ((isPrintable_toString stop.index).isLine)).append hopen
  exact (hindex.append ((isPrintable_toString stop.offset).isLine)).append hclose

/-- The report of a file that cannot be read. -/
def ReportsRead (path error report : String) : Prop :=
  ∃ backtrace, IsBacktrace backtrace ∧
    report = "Error: read " ++ path ++ "\n\nCaused by:\n    " ++ error ++ backtrace ++ "\n"

/-- The report of a file with a fault. -/
def ReportsDecode (path : String) (stop : Stop) (report : String) : Prop :=
  ∃ backtrace, IsBacktrace backtrace ∧
    report = "Error: decode " ++ path ++ "\n\nCaused by:\n    0: failed to decode instruction " ++
      toString stop.index ++ " (byte offset " ++ toString stop.offset ++ ")\n    1: " ++
      stop.cause.words ++ backtrace ++ "\n"

namespace Failure

variable {platform : Platform} {path : platform.Path}

theorem reportsRead (hreport : platform.ReportsCauses) {error : String} (h : IsLine error) :
    ReportsRead (platform.display path) error (Failure.read path error).report := by
  obtain ⟨backtrace, hbacktrace, htext⟩ := hreport.1 ("read " ++ platform.display path) error h
  refine ⟨backtrace, hbacktrace, ?_⟩
  rw [report, messages, htext, ← String.toList_inj]
  simp

theorem reportsDecode (hreport : platform.ReportsCauses) (stop : Stop) :
    ReportsDecode (platform.display path) stop (Failure.decode path stop).report := by
  obtain ⟨backtrace, hbacktrace, htext⟩ := hreport.2 ("decode " ++ platform.display path)
    stop.message stop.cause.message (isLine_stop stop) (isLine_message stop.cause)
  refine ⟨backtrace, hbacktrace, ?_⟩
  rw [report, messages, htext, message_stop, stop.cause.message_eq_words, ← String.toList_inj]
  simp

end Failure

end Command

end Disasm8086
