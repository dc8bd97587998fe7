import Disasm8086.Proofs.Lines
import Disasm8086.Proofs.Platform

/-!
# The events of a run

The events that a run on a path may write, with their texts. Their lines in the log can be told
from other lines by the level behind the time stamp.
-/
namespace Disasm8086.Command

open Terminal

namespace Event

/-- The events of a run on a path that is shown like this. -/
inductive OfRun (path : String) : Event → Prop where
  | loaded (size : Nat) : OfRun path (.loaded path size)
  | decoded (index : Nat) (placed : Placed) : OfRun path (.decoded index placed)
  | finished (instructions size : Nat) : OfRun path (.finished instructions size)

theorem text_loaded (path : String) (size : Nat) : (loaded path size).text =
    "DEBUG dis86: loaded input path=" ++ path ++ " len=" ++ toString size := by
  rw [← String.toList_inj]
  simp [loaded, text, Level.label, fieldText]

theorem text_decoded (index : Nat) (placed : Placed) : (decoded index placed).text =
    "TRACE dis86::decoder: decoded instruction index=" ++ toString index ++
      " offset=" ++ toString placed.offset ++ " len=" ++ toString placed.size.toNat ++
      " inst=" ++ placed.instruction.text := by
  rw [← String.toList_inj]
  simp [decoded, text, Level.label, fieldText]

theorem text_finished (instructions size : Nat) : (finished instructions size).text =
    "DEBUG dis86::decoder: decoded listing instructions=" ++ toString instructions ++
      " bytes=" ++ toString size := by
  rw [← String.toList_inj]
  simp [finished, text, Level.label, fieldText]

theorem isPrintable_text_loaded {path : String} (h : IsPrintable path) (size : Nat) :
    IsPrintable (loaded path size).text := by
  have hwords : IsPrintable "DEBUG dis86: loaded input path=" := by decide
  have hlength : IsPrintable " len=" := by decide
  rw [text_loaded]
  exact ((hwords.append h).append hlength).append (isPrintable_toString size)

theorem isPrintable_text_decoded (index : Nat) (placed : Placed) :
    IsPrintable (decoded index placed).text := by
  have hwords : IsPrintable "TRACE dis86::decoder: decoded instruction index=" := by decide
  have hoffset : IsPrintable " offset=" := by decide
  have hlength : IsPrintable " len=" := by decide
  have hinstruction : IsPrintable " inst=" := by decide
  rw [text_decoded]
  exact ((((((hwords.append (isPrintable_toString _)).append hoffset).append
    (isPrintable_toString _)).append hlength).append (isPrintable_toString _)).append
    hinstruction).append (isPrintable_text _)

theorem isPrintable_text_finished (instructions size : Nat) :
    IsPrintable (finished instructions size).text := by
  have hwords : IsPrintable "DEBUG dis86::decoder: decoded listing instructions=" := by decide
  have hbytes : IsPrintable " bytes=" := by decide
  rw [text_finished]
  exact ((hwords.append (isPrintable_toString _)).append hbytes).append (isPrintable_toString _)

namespace OfRun

variable {path : String} {event : Event}

theorem level_eq (h : OfRun path event) : event.level = .debug ∨ event.level = .trace := by
  cases h with
  | loaded size => exact .inl rfl
  | decoded index placed => exact .inr rfl
  | finished instructions size => exact .inl rfl

/-- All events of a run are written as lines if the path can be. -/
theorem writesLine {platform : Platform} (h : OfRun path event) (hlines : platform.WritesLines)
    (hpath : ∀ size, platform.WritesLine (.loaded path size)) : platform.WritesLine event := by
  cases h with
  | loaded size => exact hpath size
  | decoded index placed => exact hlines _ (isPrintable_text_decoded index placed)
  | finished instructions size => exact hlines _ (isPrintable_text_finished instructions size)

end OfRun

end Event

/-- A line of the log has a level behind its time stamp. -/
def IsLogLine (line : String) : Prop :=
  "DEBUG ".toList <+: behindStamp line ∨ "TRACE ".toList <+: behindStamp line

instance (line : String) : Decidable (IsLogLine line) :=
  inferInstanceAs (Decidable (_ ∨ _))

theorem isLogLine_of_shows {path line : String} {event : Event} (h : event.OfRun path)
    (hshows : Shows line event.text) : IsLogLine line := by
  rw [IsLogLine, hshows.behindStamp_eq]
  cases h with
  | loaded size => simp [Event.text_loaded]
  | decoded index placed => simp [Event.text_decoded]
  | finished instructions size => simp [Event.text_finished]

/-- The lines of a text that are none of the log. -/
def remarks (text : String) : List String :=
  (Listing.lines text).filter fun line => ¬ IsLogLine line

/-- Without the lines of the log, what stands behind it is left. -/
theorem remarks_logText_append {platform : Platform} {path : String}
    (hlines : platform.WritesLines) (hpath : ∀ size, platform.WritesLine (.loaded path size))
    {events : List Event} (hevents : ∀ event ∈ events, event.OfRun path) (clock : platform.Clock)
    (rest : String) : remarks (platform.logText clock events ++ rest) = remarks rest := by
  obtain ⟨lines, htext, hshows⟩ := Platform.exists_lines_logText
    (fun event hevent => (hevents event hevent).writesLine hlines hpath) clock
  rw [htext]
  clear htext
  induction hshows with
  | nil => rw [List.map_nil, String.join_nil, String.empty_append]
  | @cons line event lines events hline _ ih =>
    rw [List.forall_mem_cons] at hevents
    have hlog := isLogLine_of_shows hevents.1 hline
    rw [List.map_cons, String.join_cons, String.append_assoc, ← ih hevents.2, remarks,
      Listing.lines_append hline.1, List.filter_cons_of_neg (by simpa using hlog), remarks]

end Disasm8086.Command
