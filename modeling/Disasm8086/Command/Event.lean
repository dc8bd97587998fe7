import Disasm8086.Command.Level
import Disasm8086.Sweep

/-!
# Events of the log

What the command reports of its work. An event has a level, the part of the program that it comes
from, a message, and named values; its text shows them in this order.
-/
namespace Disasm8086.Command

structure Event where
  level : Level
  /-- The part of the program that the event comes from. -/
  target : String
  message : String
  fields : List (String × String)
  deriving DecidableEq, Repr

namespace Event

/-- The input of the command is read. -/
def loaded (path : String) (size : Nat) : Event where
  level := .debug
  target := "dis86"
  message := "loaded input"
  fields := [("path", path), ("len", toString size)]

/-- An instruction is found. -/
def decoded (index : Nat) (placed : Placed) : Event where
  level := .trace
  target := "dis86::decoder"
  message := "decoded instruction"
  fields := [("index", toString index), ("offset", toString placed.offset),
    ("len", toString placed.size.toNat), ("inst", placed.instruction.text)]

/-- A listing is complete. -/
def finished (instructions size : Nat) : Event where
  level := .debug
  target := "dis86::decoder"
  message := "decoded listing"
  fields := [("instructions", toString instructions), ("bytes", toString size)]

def fieldText : String × String → String
  | (name, value) => " " ++ name ++ "=" ++ value

def text (event : Event) : String :=
  event.level.label ++ " " ++ event.target ++ ": " ++ event.message ++
    String.join (event.fields.map fieldText)

end Event

end Disasm8086.Command
