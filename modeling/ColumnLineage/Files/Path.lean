import ColumnLineage.Text.Utf8

/-!
Paths: bytes, which need not be a text, with steps between slashes. A path that ends with a slash
has to lead to a directory, as if it ended with a step that stays.
-/

namespace ColumnLineage.Files

/-- A path. -/
abbrev Path := Bytes

/-- One step of a path. -/
inductive Step where
  | stay
  | up
  | into (name : Bytes)
  deriving DecidableEq

namespace Path

/-- The byte between steps. -/
def slash : UInt8 := 0x2F

/-- The byte of which the names are made that lead nowhere new. -/
def dot : UInt8 := 0x2E

end Path

namespace Step

/-- The step that a part of a path writes, if it writes any. -/
def ofPart? (part : Bytes) : Option Step :=
  if part = [] then none
  else if part = [Path.dot] then some stay
  else if part = [Path.dot, Path.dot] then some up
  else some (into part)

end Step

namespace Path

/-- The steps of a path that its parts write. -/
def steps (path : Path) : List Step :=
  (path.splitOn slash).filterMap Step.ofPart?

/-- The steps of a path with the one that a slash at its end stands for. -/
def allSteps (path : Path) : List Step :=
  if path.getLast? = some slash then steps path ++ [.stay] else steps path

/-- Whether a path starts from the top of all files. -/
def isAbsolute (path : Path) : Bool :=
  path.head? = some slash

/-- The path of a name in a directory, as `Path::join` makes it. -/
def join (directory : Path) (name : Bytes) : Path :=
  if directory.isEmpty || directory.getLast? = some slash then directory ++ name
  else directory ++ slash :: name

/-- A directory and those above it, the nearest first, where the path to it is absolute. -/
def ancestors (path : Path) : List Path :=
  let names := (path.splitOn slash).filter (· ≠ [])
  (List.range (names.length + 1)).reverse.map fun n => slash :: [slash].intercalate (names.take n)

/-- The names that steps go into. -/
def namesOf (steps : List Step) : List Bytes :=
  steps.filterMap fun step =>
    match step with
    | .into name => some name
    | _ => none

/-- The name at the end of a path, as `Path::file_name` tells it. There is none where the path leads
nowhere or ends with a step up. -/
def fileName? (path : Path) : Option Bytes :=
  match ((steps path).filter (· ≠ .stay)).getLast? with
  | some (.into name) => some name
  | _ => none

/-- The name under which `process_file` reports a path: the name at its end, or all of it, with
replacements for what is no text. -/
def reportName (path : Path) : Text :=
  Utf8.decodeLenient ((fileName? path).getD path)

end Path

end ColumnLineage.Files
