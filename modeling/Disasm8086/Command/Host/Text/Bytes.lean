/-!
# Places in a text

A place in a text is the number of bytes before it; a character takes one to four of them. A text
can be split at a place that is not inside of a character.
-/
namespace Disasm8086.Text

/-- The number of bytes of a text. -/
def byteCount : List Char → Nat
  | [] => 0
  | c :: text => c.utf8Size + byteCount text

/-- A text before and behind a place, which must not be inside of a character. -/
def splitAt? : (place : Nat) → List Char → Option (List Char × List Char)
  | 0, text => some ([], text)
  | _ + 1, [] => none
  | place + 1, c :: text =>
    if c.utf8Size ≤ place + 1 then
      (splitAt? (place + 1 - c.utf8Size) text).map fun (before, behind) => (c :: before, behind)
    else none

/-- The part of a text from one place to another. -/
def cut? (start stop : Nat) (text : List Char) : Option (List Char) := do
  let (_, behind) ← splitAt? start text
  let (between, _) ← splitAt? (stop - start) behind
  some between

end Disasm8086.Text
