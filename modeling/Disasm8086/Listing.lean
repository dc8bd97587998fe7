import Disasm8086.Sweep

/-!
# Listings

The source text of a buffer: a header that selects sixteen-bit code, then one line for each
instruction. A buffer with a fault has no listing.
-/
namespace Disasm8086.Listing

def header : String :=
  "bits 16\n\n"

def line (placed : Placed) : String :=
  placed.instruction.text ++ "\n"

/-- The header and a line for each instruction. -/
def ofInstructions (placed : List Placed) : String :=
  header ++ String.join (placed.map line)

/-- The instructions of a sweep, unless it met a fault. -/
def instructions (items : List (Except Stop Placed)) : Except Stop (List Placed) :=
  items.mapM id

def disassemble (bytes : List UInt8) : Except Stop String :=
  (instructions (Sweep.ofBytes bytes).items).map ofInstructions

end Disasm8086.Listing
