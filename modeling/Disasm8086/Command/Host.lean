import Disasm8086.Command.Host.Arguments
import Disasm8086.Command.Host.Files
import Disasm8086.Command.Host.Filter
import Disasm8086.Command.Platform

/-!
# A host for the command

A platform on which the command can be run: texts as arguments and paths, files that are read by a
function, and a log without time and colour. Nothing that is proved of the command rests on it.
-/
namespace Disasm8086.Command

/-- A text of lines. -/
def joinLines (lines : List String) : String :=
  String.join (lines.map (· ++ "\n"))

/-- The path of a command line; help and errors end the run. -/
def inputPath : Except ArgumentError Request → Except Outcome String
  | .ok (.disassemble path) => .ok path
  | .ok .help => .error ⟨0, help, ""⟩
  | .error error => .error ⟨2, "", joinLines error.lines⟩

/-- Several causes are numbered, a single one is not. -/
def causeLines : List String → List String
  | [cause] => ["    " ++ cause]
  | causes => causes.zipIdx.map fun (cause, number) => "    " ++ toString number ++ ": " ++ cause

def reportText : List String → String
  | [] => ""
  | [message] => message
  | message :: causes => "\n".intercalate (message :: "" :: "Caused by:" :: causeLines causes)

def host (read : String → Except ReadError (List UInt8)) : Platform where
  Argument := String
  Path := String
  Filter := Filter
  Clock := Unit
  parse arguments := inputPath (Request.ofArguments arguments)
  display path := path
  read path := (read path).mapError ReadError.message
  print _ := .ok ()
  filter? := Filter.ofText?
  lenientFilter := Filter.ofReadable
  admits := Filter.admits
  format _ event := (event.text ++ "\n", ())
  report := reportText

end Disasm8086.Command
