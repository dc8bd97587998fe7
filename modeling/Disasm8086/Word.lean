/-!
# Words in a byte stream

The processor stores a sixteen-bit word with its low byte first, and widens a signed byte to a
word by repeating the sign bit.
-/
namespace Disasm8086.Word

/-- The word stored as `low` followed by `high`. -/
def ofBytes (low high : UInt8) : UInt16 :=
  high.toUInt16 <<< 8 ||| low.toUInt16

/-- The two bytes that store a word, low byte first. -/
def toBytes (value : UInt16) : List UInt8 :=
  [value.toUInt8, (value >>> 8).toUInt8]

/-- The signed word with the value of a two's-complement byte. -/
def signExtend (byte : UInt8) : Int16 :=
  byte.toInt8.toInt16

end Disasm8086.Word
