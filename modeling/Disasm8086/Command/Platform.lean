import Disasm8086.Command.Event

/-!
# Platforms

What the command takes from the system and from libraries: its arguments and files, standard
output, the log, and the form of an error report.
-/
namespace Disasm8086.Command

/-- What a run of the command leaves behind. -/
structure Outcome where
  code : UInt8
  stdout : String
  stderr : String
  deriving DecidableEq, Repr

structure Platform where
  Argument : Type
  Path : Type
  /-- What a setting of the log lets through. -/
  Filter : Type
  /-- What a line of the log depends on beside its event, such as the time. -/
  Clock : Type
  /-- The input path of a command line, or the end of a run that names none. -/
  parse : List Argument → Except Outcome Path
  /-- A path as it is shown, which need not tell it from other paths. -/
  display : Path → String
  /-- The bytes of a file, or the text of the error. -/
  read : Path → Except String (List UInt8)
  /-- Writes a text to standard output; an error comes with the part that has been written. -/
  print : String → Except (String × String) Unit
  /-- The filter of a setting, if all of it can be read. -/
  filter? : String → Option Filter
  /-- The filter of what can be read of a setting. -/
  lenientFilter : String → Filter
  admits : Filter → Event → Bool
  /-- What the log writes for an event. -/
  format : Clock → Event → String × Clock
  /-- The report of an error: its message, and those of its causes up to the first. -/
  report : List String → String

/-- The filter of a run. Warnings pass without a setting, and with one that cannot be read. -/
def Platform.filterOf (platform : Platform) (setting : Option String) : platform.Filter :=
  (setting.bind platform.filter?).getD (platform.lenientFilter "warn")

end Disasm8086.Command
