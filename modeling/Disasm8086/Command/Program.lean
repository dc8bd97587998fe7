import Disasm8086.Command.Log

/-!
# The program

A run of the command ends with an exit code, a text on standard output, and the log with an error
report behind it on standard error. It prints a whole listing or none: a file that cannot be read,
or that has a fault, leaves standard output empty and is reported.
-/
namespace Disasm8086.Command

variable {platform : Platform}

/-- Why a run failed. -/
inductive Failure (platform : Platform) where
  | read (path : platform.Path) (error : String)
  | decode (path : platform.Path) (stop : Stop)
  | print (error : String)

namespace Failure

/-- The message of a failure, and those of its causes. -/
def messages : Failure platform → List String
  | .read path error => ["read " ++ platform.display path, error]
  | .decode path stop => ["decode " ++ platform.display path, stop.message, stop.cause.message]
  | .print error => ["write listing to stdout", error]

def report (failure : Failure platform) : String :=
  "Error: " ++ platform.report failure.messages ++ "\n"

end Failure

/-- The listing of the file at a path. -/
def disassembleFile (filter : platform.Filter) (path : platform.Path) :
    Logged platform (Failure platform) String :=
  match platform.read path with
  | .error error => throw (.read path error)
  | .ok bytes => do
    write filter (.loaded (platform.display path) bytes.length)
    (listing filter bytes).adaptExcept (.decode path)

/-- A listing is printed once it is complete, a failure is reported. -/
def Outcome.ofResult : EStateM.Result (Failure platform) (Console platform) String → Outcome
  | .error failure console => ⟨1, "", console.text ++ failure.report⟩
  | .ok listing console =>
    match platform.print listing with
    | .ok () => ⟨0, listing, console.text⟩
    | .error (written, error) =>
      ⟨1, written, console.text ++ (Failure.print error : Failure platform).report⟩

/-- A run whose filter is made. -/
def Platform.runWith (platform : Platform) (filter : platform.Filter) (clock : platform.Clock)
    (arguments : List platform.Argument) : Outcome :=
  match platform.parse arguments with
  | .error outcome => outcome
  | .ok path => .ofResult (disassembleFile filter path ⟨clock, ""⟩)

/-- A run of the command with a setting of the log. -/
def Platform.run (platform : Platform) (setting : Option String) (clock : platform.Clock)
    (arguments : List platform.Argument) : Outcome :=
  platform.runWith (platform.filterOf setting) clock arguments

end Disasm8086.Command
