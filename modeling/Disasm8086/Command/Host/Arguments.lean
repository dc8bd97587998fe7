import Disasm8086.Command.Host.Text.Likeness

/-!
# Command line arguments

The command takes the path of one input file, or the wish for help. Arguments are looked at from
left to right, and the first that settles the matter wins: a wish for help, or an error.
-/
namespace Disasm8086.Command

/-- What a command line asks for. -/
inductive Request where
  | help
  | disassemble (path : String)
  deriving DecidableEq, Repr

inductive ArgumentError where
  | missingInput
  | emptyInput
  | unexpected (argument : String)
  /-- An unknown option that looks like the help option. -/
  | misspelledHelp (option : String)
  /-- The help option was given a value. -/
  | helpValue (value : String)
  deriving DecidableEq, Repr

/-- One argument in front of the `--` that ends the options. -/
inductive Argument where
  | endOfOptions
  | help
  | input
  | refused (error : ArgumentError)
  deriving DecidableEq, Repr

namespace Argument

/-- An unknown option that shares seven tenths with the help option is taken for a misspelling. -/
def ofUnknownOption (name : List Char) : ArgumentError :=
  let option := String.ofList ('-' :: '-' :: name)
  if 7 / 10 ≤ Text.likeness name "help".toList then .misspelledHelp option else .unexpected option

/-- The option behind `--`, which may have a value behind an equals sign. -/
def ofLongOption (option : List Char) : Argument :=
  let name := option.takeWhile (· ≠ '=')
  if name ≠ "help".toList then .refused (ofUnknownOption name)
  else match option.drop name.length with
    | [] => .help
    | _ :: value => .refused (.helpValue (String.ofList value))

/-- A single `-` is a path; a bundle of short options is settled by its first letter. -/
def ofString (argument : String) : Argument :=
  match argument.toList with
  | ['-', '-'] => .endOfOptions
  | '-' :: '-' :: option => ofLongOption option
  | '-' :: 'h' :: _ => .help
  | '-' :: option :: _ => .refused (.unexpected (String.ofList ['-', option]))
  | _ => .input

end Argument

namespace Request

/-- The request at the end of the arguments, given the path found. -/
def ofInput : Option String → Except ArgumentError Request
  | none => .error .missingInput
  | some path => if path = "" then .error .emptyInput else .ok (.disassemble path)

/-- Arguments behind `--`: paths only. -/
def ofInputs : Option String → List String → Except ArgumentError Request
  | found, [] => ofInput found
  | none, path :: rest => ofInputs (some path) rest
  | some _, path :: _ => .error (.unexpected path)

/-- The request of the arguments, given the path found before them. An empty path is refused
before help is shown. -/
def scan : Option String → List String → Except ArgumentError Request
  | found, [] => ofInput found
  | found, argument :: rest =>
    match Argument.ofString argument, found with
    | .endOfOptions, _ => ofInputs found rest
    | .help, some "" => .error .emptyInput
    | .help, _ => .ok .help
    | .refused error, _ => .error error
    | .input, none => scan (some argument) rest
    | .input, some _ => .error (.unexpected argument)

def ofArguments (arguments : List String) : Except ArgumentError Request :=
  scan none arguments

end Request

def usage : String :=
  "Usage: dis86 <INPUT>"

/-- The usage of a command line that has the help option. -/
def helpUsage : String :=
  "Usage: dis86 --help <INPUT>"

def help : String :=
  "Disassemble 8086 machine code (mov/add/sub subset) into NASM source.\n\n" ++ usage ++
    "\n\nArguments:\n  <INPUT>  Flat binary file containing 16-bit 8086 machine code\n\n" ++
    "Options:\n  -h, --help  Print help\n"

namespace ArgumentError

def message : ArgumentError → List String
  | .missingInput =>
    ["error: the following required arguments were not provided:", "  <INPUT>", "", usage]
  | .emptyInput => ["error: a value is required for '<INPUT>' but none was supplied"]
  | .unexpected argument =>
    ["error: unexpected argument '" ++ argument ++ "' found", "", usage]
  | .misspelledHelp option =>
    ["error: unexpected argument '" ++ option ++ "' found", "",
      "  tip: a similar argument exists: '--help'", "", helpUsage]
  | .helpValue value =>
    ["error: unexpected value '" ++ value ++ "' for '--help' found; no more were expected", "",
      helpUsage]

/-- The lines of the error report. -/
def lines (error : ArgumentError) : List String :=
  error.message ++ ["", "For more information, try '--help'."]

end ArgumentError

end Disasm8086.Command
