/-!
# Files

A tree of files, and the reading of a file by its path. Paths are walked name by name, from the
root of the tree or from the directory in which the command works.
-/
namespace Disasm8086.Command

inductive ReadError where
  | notFound
  | notADirectory
  | isADirectory
  | nameTooLong
  | other (message : String)
  deriving DecidableEq, Repr

def ReadError.message : ReadError → String
  | .notFound => "No such file or directory (os error 2)"
  | .notADirectory => "Not a directory (os error 20)"
  | .isADirectory => "Is a directory (os error 21)"
  | .nameTooLong => "File name too long (os error 36)"
  | .other message => message

/-- Files and directories by the names on the way from the root. What lies on the way to one of
them is a directory too. -/
structure FileTree where
  files : List (List String × List UInt8)
  directories : List (List String)
  workingDirectory : List String
  /-- The longest name, in bytes. -/
  nameLimit : Nat
  /-- The longest path, in bytes. -/
  pathLimit : Nat
  deriving DecidableEq, Repr

namespace FileTree

/-- The tree of a machine without files of its own: the null device, which is an empty file, the
usual directories, and an empty working directory. -/
def machine : FileTree where
  files := [(["dev", "null"], [])]
  directories :=
    ["bin", "boot", "dev", "etc", "home", "lib", "media", "mnt", "opt", "proc", "root", "run",
      "sbin", "srv", "sys", "tmp", "usr", "var"].map ([·]) ++ [["tmp", "work"]]
  workingDirectory := ["tmp", "work"]
  nameLimit := 255
  pathLimit := 4095

/-- One name further among directories that are all there or made on the way. An empty name stays,
as `.` does, and `..` goes up, but not above the root. -/
def enter (directory : List String) (name : String) : List String :=
  if name = "" || name = "." then directory
  else if name = ".." then directory.dropLast
  else directory ++ [name]

/-- The tree with a file written at a path from the working directory, and with all directories
that the path goes through. -/
def write (tree : FileTree) (path : String) (bytes : List UInt8) : FileTree :=
  let names := path.splitOn "/"
  let way := names.dropLast.foldl (fun way name => enter (way.headD []) name :: way)
    [tree.workingDirectory]
  { tree with
    files := (names.foldl enter tree.workingDirectory, bytes) :: tree.files
    directories := way ++ tree.directories }

/-- The machine with files at paths from the working directory. -/
def ofPaths (files : List (String × List UInt8)) : FileTree :=
  files.foldl (fun tree (path, bytes) => tree.write path bytes) machine

def file? (tree : FileTree) (names : List String) : Option (List UInt8) :=
  (tree.files.find? (·.1 = names)).map (·.2)

def hasDirectory (tree : FileTree) (names : List String) : Bool :=
  tree.directories.any (names.isPrefixOf ·) ||
    tree.files.any fun (way, _) => names.isPrefixOf way && names.length < way.length

/-- Where a walk through the tree may stand. -/
inductive Place where
  | file (bytes : List UInt8)
  | directory (names : List String)
  deriving DecidableEq, Repr

/-- One name further. No name leads on from a file. -/
def step (tree : FileTree) : Place → String → Except ReadError Place
  | .file _, _ => .error .notADirectory
  | .directory names, name =>
    let next := enter names name
    if name.utf8ByteSize > tree.nameLimit then .error .nameTooLong
    else match tree.file? next with
      | some bytes => .ok (.file bytes)
      | none => if tree.hasDirectory next then .ok (.directory next) else .error .notFound

/-- The bytes of the file that a path leads to. -/
def read (tree : FileTree) (path : String) : Except ReadError (List UInt8) :=
  if path.utf8ByteSize > tree.pathLimit then .error .nameTooLong
  else do
    let start := if path.startsWith "/" then [] else tree.workingDirectory
    match ← (path.splitOn "/").foldlM tree.step (.directory start) with
    | .file bytes => return bytes
    | .directory _ => throw .isADirectory

end FileTree

end Disasm8086.Command
