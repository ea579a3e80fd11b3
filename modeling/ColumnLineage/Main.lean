import ColumnLineage.CommandLine.Run

/-!
The program. It gathers what a run starts from, prints the lines of the run and ends with its
status. No server is in reach of it, so every description of a column fails.
-/

namespace ColumnLineage.CommandLine

open Files (Path ReadError Standing)
open Settings (Environment)

/-- The paths of the files that a run may read. -/
def pathsToRead (arguments : Except Stop Arguments) (directories : List Path) : List Path :=
  match arguments with
  | .ok arguments =>
    defaultSettingsPath :: (dotenvPaths directories ++ arguments.config.toList ++ arguments.files)
  | .error _ => []

/-- Whether a run takes its query from standard input. -/
def takesInput (arguments : Except Stop Arguments) : Bool :=
  match arguments with
  | .ok arguments => arguments.sql.isNone && arguments.files.isEmpty
  | .error _ => false

/-- The variable that a name and a value with an equals sign between them make. -/
def assigned? (entry : Text) : Option (Text × Text) :=
  match entry.dropWhile (· ≠ '=') with
  | _ :: value => some (entry.takeWhile (· ≠ '='), value)
  | [] => none

/-- The variables in bytes that part them by zeros. A variable that is no text is passed over. -/
def environmentOf (bytes : Bytes) : Environment :=
  (bytes.splitOn 0).filterMap fun entry => (Utf8.decode? entry).bind assigned?

/-- The error of the system with a number, which may come with its sign turned. -/
def systemError (number : UInt32) (details : String) : ReadError :=
  match if number < 0x80000000 then number else 0 - number with
  | 2 => .notFound
  | 20 => .notDirectory
  | 21 => .isDirectory
  | 36 => .nameTooLong
  | number =>
    .other (details.capitalize.toList ++ " (os error ".toList ++ decimalDigits number.toNat ++ [')'])

/-- Why the system could not read a file. -/
def readErrorOf : IO.Error → ReadError
  | .noFileOrDirectory _ number details
  | .inappropriateType _ number details
  | .invalidArgument _ number details
  | .permissionDenied _ number details
  | .resourceExhausted _ number details
  | .noSuchThing _ number details
  | .otherError number details => systemError number details
  | e => .other (toString e).toList

/-- The text by which the system is asked for a path. There is none where the path is no text or
holds a zero. -/
def systemPath (path : Path) : Except ReadError String :=
  if path.contains 0 then .error .nulByte
  else
    match Utf8.decode? path with
    | some text => .ok (String.ofList text)
    | none => .error .notFound

/-- What stands at the end of a path. -/
def readFile (path : Path) : IO (Except ReadError Bytes) := do
  match systemPath path with
  | .error e => return .error e
  | .ok text =>
    try
      let content ← IO.FS.readBinFile text
      return .ok content.toList
    catch e =>
      return .error (readErrorOf e)

/-- What the system tells of a path. -/
def standingOf (path : Path) : IO Standing := do
  match systemPath path with
  | .error .notFound => return .nothing
  | .error _ => return .unknown
  | .ok text =>
    try
      let told ← ((← IO.currentDir) / text).metadata
      match told.type with
      | .file => return .file
      | _ => return .other
    catch e =>
      match readErrorOf e with
      | .notFound => return .nothing
      | _ => return .unknown

/-- The working directory and those above it, if it is known. -/
def readDirectories : IO (List Path) := do
  try
    return Path.ancestors (Utf8.encode (← IO.currentDir).toString.toList)
  catch _ =>
    return []

/-- All that is left in a stream, after what has been read of it. -/
partial def readRest (stream : IO.FS.Stream) (earlier : ByteArray) : IO ByteArray := do
  let more ← stream.read 65536
  if more.isEmpty then
    return earlier
  else
    readRest stream (earlier ++ more)

/-- All of standard input. -/
def readInput : IO (Except ReadError Bytes) := do
  try
    return .ok (← readRest (← IO.getStdin) .empty).toList
  catch e =>
    return .error (readErrorOf e)

/-- The bytes of the arguments, of which `texts` is what the system makes texts of. -/
def readArguments (texts : List Text) : IO (List Bytes) := do
  match ← readFile (Utf8.encode "/proc/self/cmdline".toList) with
  | .ok bytes =>
    let all := (bytes.splitOn 0).dropLast
    return all.drop (all.length - texts.length)
  | .error _ => return texts.map Utf8.encode

/-- What is known of some paths, looked up by the path. -/
def known (entries : List (Path × α)) (unknown : α) : Path → α := fun path =>
  match entries.find? (·.1 = path) with
  | some (_, told) => told
  | none => unknown

/-- Gathers what a run starts from. -/
def gather (texts : List Text) : IO Invocation := do
  let arguments ← readArguments texts
  let directories ← readDirectories
  let read := Arguments.read arguments
  let paths := pathsToRead read directories
  let contents ← paths.mapM fun path => return (path, ← readFile path)
  let standings ← paths.mapM fun path => return (path, ← standingOf path)
  let environment ←
    match ← readFile (Utf8.encode "/proc/self/environ".toList) with
    | .ok bytes => pure (environmentOf bytes)
    | .error _ => pure []
  let clock ← IO.monoMsNow
  let input ← if takesInput read then readInput else pure (.ok [])
  return {
    arguments := arguments
    environment := environment
    files := known contents (.error .notFound)
    standing := known standings .nothing
    directories := directories
    input := input
    exchange := .start none (clock / 1000) [] }

end ColumnLineage.CommandLine

open ColumnLineage in
/-- Runs the program with its arguments. -/
def main (arguments : List String) : IO UInt32 := do
  let done := CommandLine.run (← CommandLine.gather (arguments.map String.toList))
  let output ← IO.getStdout
  for line in done.lines do
    output.putStrLn (String.ofList line)
  output.flush
  return done.status.toUInt32
