import Disasm8086.Listing
import Disasm8086.Proofs.Text

/-!
# The lines of a listing

A listing has the header's two lines and then one line for each instruction, which is the text of
the instruction. So listings are equal exactly if their instructions have the same texts.
-/
namespace Disasm8086.Listing

/-- The lines of `rest`, the first of them behind `current`, whose last character comes first.
A newline ends a line; what stands behind the last newline is a line if it is not empty. -/
def splitLines (current : List Char) : List Char → List (List Char)
  | [] => if current.isEmpty then [] else [current.reverse]
  | c :: rest =>
    if c = '\n' then current.reverse :: splitLines [] rest else splitLines (c :: current) rest

def lines (text : String) : List String :=
  (splitLines [] text.toList).map String.ofList

theorem splitLines_append {line : List Char} (h : '\n' ∉ line) (current rest : List Char) :
    splitLines current (line ++ '\n' :: rest) =
      (current.reverse ++ line) :: splitLines [] rest := by
  induction line generalizing current with
  | nil => simp [splitLines]
  | cons c line ih =>
    simp only [List.mem_cons, not_or] at h
    rw [List.cons_append, splitLines, if_neg (Ne.symm h.1), ih h.2, List.reverse_cons,
      List.append_assoc, List.singleton_append]

theorem lines_append {line : String} (h : '\n' ∉ line.toList) (rest : String) :
    lines (line ++ "\n" ++ rest) = line :: lines rest := by
  have hnewline : "\n".toList = ['\n'] := rfl
  simp only [lines, String.toList_append, hnewline, List.append_assoc, List.singleton_append]
  rw [splitLines_append h, List.reverse_nil, List.nil_append, List.map_cons, String.ofList_toList]

/-- The lines behind a newline do not depend on what stands in front of it. -/
theorem splitLines_append_newline (text current rest : List Char) :
    splitLines current (text ++ '\n' :: rest) =
      splitLines current (text ++ ['\n']) ++ splitLines [] rest := by
  induction text generalizing current with
  | nil => simp [splitLines]
  | cons c text ih =>
    rw [List.cons_append, List.cons_append, splitLines, splitLines]
    split
    · rw [ih, List.cons_append]
    · exact ih _

theorem lines_append_newline (text rest : String) :
    lines (text ++ "\n" ++ rest) = lines (text ++ "\n") ++ lines rest := by
  have hnewline : "\n".toList = ['\n'] := rfl
  simp only [lines, String.toList_append, hnewline, List.append_assoc, List.singleton_append]
  rw [splitLines_append_newline, List.map_append]

theorem lines_join (placed : List Placed) :
    lines (String.join (placed.map line)) = placed.map fun item => item.instruction.text := by
  induction placed with
  | nil => rfl
  | cons first placed ih =>
    have hjoin : String.join ((first :: placed).map line) =
        first.instruction.text ++ "\n" ++ String.join (placed.map line) := by
      rw [← String.toList_inj]
      simp [line]
    rw [hjoin, lines_append first.instruction.newline_not_mem_text, ih, List.map_cons]

/-- The header has two lines, the second of them blank; then each instruction has its line. -/
theorem lines_ofInstructions (placed : List Placed) : lines (ofInstructions placed) =
    "bits 16" :: "" :: placed.map fun item => item.instruction.text := by
  have hheader : ofInstructions placed =
      "bits 16" ++ "\n" ++ ("" ++ "\n" ++ String.join (placed.map line)) := by
    rw [← String.toList_inj]
    simp only [ofInstructions, header, String.toList_append]
    rfl
  rw [hheader, lines_append (by decide), lines_append (by decide), lines_join]

end Disasm8086.Listing
