/-!
# Likeness of words

How much two words have in common, from 0 for nothing to 1 for the same word: the mean of the
shares of their characters that match and of the share of matches that stand in the same order.
Characters match across a distance of less than half the longer word.
-/
namespace Disasm8086.Text

/-- The places of `other`, not yet `taken`, that hold `c` at most `reach` away from place `i`. -/
def candidates (reach : Nat) (other : List Char) (taken : List Nat) (c : Char) (i : Nat) :
    List Nat :=
  (List.range other.length).filter fun j =>
    other[j]? = some c && i ≤ j + reach && j ≤ i + reach && !taken.contains j

/-- For each character of `word`, from the left, the first free place of `other` that matches it. -/
def matchedPlaces (reach : Nat) (other : List Char) (word : List Char) : List (Char × Nat) :=
  word.zipIdx.foldl (fun found (c, i) =>
    match candidates reach other (found.map (·.2)) c i with
    | j :: _ => found ++ [(c, j)]
    | [] => found) []

def likeness (word other : List Char) : Rat :=
  let reach := max word.length other.length / 2 - 1
  let found := matchedPlaces reach other word
  let places := found.map (·.2)
  let inOther := (other.zipIdx.filter fun (_, j) => places.contains j).map (·.1)
  let displaced := ((found.map (·.1)).zip inOther).countP fun (c, d) => c ≠ d
  let count : Rat := found.length
  if found.isEmpty then 0
  else (count / word.length + count / other.length + (count - (displaced / 2 : Nat)) / count) / 3

end Disasm8086.Text
