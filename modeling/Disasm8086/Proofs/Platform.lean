import Disasm8086.Command.Program
import Disasm8086.Proofs.Lines
import Disasm8086.Proofs.Terminal

/-!
# What a platform promises

What is known of the libraries and the system that the command works with. Each promise is a
property of a platform that the results on the command name if they rest on it.
-/
namespace Disasm8086.Command

open Terminal

/-- What may stand behind the causes in a report of an error. -/
def IsBacktrace (text : String) : Prop :=
  text = "" ∨ ∃ frames, text = "\n\nStack backtrace:\n" ++ frames

namespace Platform

variable (platform : Platform)

/-- Writing to standard output succeeds. -/
def PrintsAll : Prop :=
  ∀ text, platform.print text = .ok ()

/-- The setting `trace` lets every event through. -/
def TracesAll : Prop :=
  ∃ filter, platform.filter? "trace" = some filter ∧ ∀ event, platform.admits filter event = true

/-- What the log writes for an event ends a line. -/
def EndsLines : Prop :=
  ∀ clock event, ∃ text, (platform.format clock event).1 = text ++ "\n"

/-- Whatever the time, the log writes one line for the event, which shows its text. -/
def WritesLine (event : Event) : Prop :=
  ∀ clock, ∃ line, (platform.format clock event).1 = line ++ "\n" ∧
    Shows line event.text

/-- The log writes one line for an event that can be shown. -/
def WritesLines : Prop :=
  ∀ event : Event, IsPrintable event.text → platform.WritesLine event

/-- A report names its causes on lines of their own, with numbers if there are several. -/
def ReportsCauses : Prop :=
  (∀ message cause, IsLine cause → ∃ backtrace, IsBacktrace backtrace ∧
    platform.report [message, cause] =
      message ++ "\n\nCaused by:\n    " ++ cause ++ backtrace) ∧
  ∀ message cause source, IsLine cause → IsLine source → ∃ backtrace, IsBacktrace backtrace ∧
    platform.report [message, cause, source] =
      message ++ "\n\nCaused by:\n    0: " ++ cause ++ "\n    1: " ++ source ++ backtrace

/-- The text of a read error is a line. -/
def NamesErrors : Prop :=
  ∀ path error, platform.read path = .error error → IsLine error

/-- What the log writes for events, one behind the other. -/
def logText (platform : Platform) (clock : platform.Clock) : List Event → String
  | [] => ""
  | event :: events =>
    (platform.format clock event).1 ++ platform.logText (platform.format clock event).2 events

variable {platform}

/-- The lines of the log come first, and then those of what stands behind it. -/
theorem lines_logText_append (h : platform.EndsLines) (clock : platform.Clock) (events : List Event)
    (rest : String) : Listing.lines (platform.logText clock events ++ rest) =
      Listing.lines (platform.logText clock events) ++ Listing.lines rest := by
  induction events generalizing clock with
  | nil =>
    rw [logText, String.empty_append]
    rfl
  | cons event events ih =>
    obtain ⟨text, htext⟩ := h clock event
    rw [logText, htext, String.append_assoc, Listing.lines_append_newline, ih,
      Listing.lines_append_newline, List.append_assoc]

/-- Events that are written as lines make up as many lines. -/
theorem exists_lines_logText {events : List Event}
    (h : ∀ event ∈ events, platform.WritesLine event) (clock : platform.Clock) :
    ∃ lines, platform.logText clock events = String.join (lines.map (· ++ "\n")) ∧
      List.Forall₂ (fun line event => Shows line event.text) lines events := by
  induction events generalizing clock with
  | nil => exact ⟨[], rfl, .nil⟩
  | cons event events ih =>
    rw [List.forall_mem_cons] at h
    obtain ⟨line, hline, hshows⟩ := h.1 clock
    obtain ⟨lines, hlines, hall⟩ := ih h.2 (platform.format clock event).2
    refine ⟨line :: lines, ?_, .cons hshows hall⟩
    rw [logText, hline, hlines, List.map_cons, String.join_cons]

end Platform

end Disasm8086.Command
