import ColumnLineage.Files.Path

/-!
Arguments of the command line. They are read from left to right: an option that takes a value waits
for it, and the value is judged when something after it settles the option. What looks like an
option but is none stands for the query as long as there is no query yet, or for the value that is
waited for. Arguments are bytes: a path need not be a text, a query has to be one.
-/

namespace ColumnLineage.CommandLine

open Files (Path)

/-- What the arguments ask to be processed: the fields of `Cli`. -/
structure Arguments where
  sql : Option Text
  files : List Path
  config : Option Path
  verbose : Bool
  deriving DecidableEq

/-- Why arguments are refused. -/
inductive ArgumentError where
  | unexpectedArgument
  | unexpectedValue
  | invalidValue
  | conflict
  | invalidUtf8
  deriving DecidableEq

/-- The wording of an error, which is that of its `ErrorKind`. -/
def ArgumentError.message : ArgumentError → Text
  | unexpectedArgument => "unexpected argument found".toList
  | unexpectedValue => "unexpected value for an argument found".toList
  | invalidValue => "one of the values isn't valid for an argument".toList
  | conflict =>
    "an argument cannot be used with one or more of the other specified arguments".toList
  | invalidUtf8 => "invalid UTF-8 was detected in one or more arguments".toList

/-- Why reading arguments ends before the last one. -/
inductive Stop where
  | help
  | version
  | refused (e : ArgumentError)
  deriving DecidableEq

/-- The options. -/
inductive Opt where
  | file
  | config
  | verbose
  | help
  | version
  deriving DecidableEq

namespace Opt

/-- All options with their long names and their letters. -/
def table : List (Text × Char × Opt) :=
  [("file".toList, 'f', file), ("config".toList, 'c', config), ("verbose".toList, 'v', verbose),
   ("help".toList, 'h', help), ("version".toList, 'V', version)]

/-- The option with a long name. -/
def ofName? (name : Text) : Option Opt :=
  (table.find? (·.1 = name)).map (·.2.2)

/-- The option with a letter. All letters are single bytes. -/
def ofLetter? (letter : UInt8) : Option Opt :=
  (table.find? (·.2.1.toNat = letter.toNat)).map (·.2.2)

/-- Whether an option takes a value. -/
def takesValue : Opt → Bool
  | file | config => true
  | _ => false

end Opt

/-- What is not settled yet: an option with its value, if it has one already, or the query, which
may turn out to be no text. -/
inductive Unsettled where
  | option (option : Opt) (value? : Option Bytes)
  | query (sql : Bytes)
  deriving DecidableEq

/-- What has been read so far: the arguments, what is not settled yet, and whether everything that
follows is taken as it is. -/
structure Reading where
  arguments : Arguments
  unsettled : Option Unsettled
  literal : Bool
  deriving DecidableEq

/-- The byte that options begin with. -/
@[match_pattern] def dash : UInt8 := 0x2D

/-- The byte before a value that stands in one argument with its option. -/
@[match_pattern] def equalsSign : UInt8 := 0x3D

namespace Reading

/-- Before the first argument. -/
def initial : Reading :=
  ⟨⟨none, [], none, false⟩, none, false⟩

/-- Whether there is a query, settled or not. -/
def hasQuery (reading : Reading) : Bool :=
  match reading.unsettled with
  | some (.query _) => true
  | _ => reading.arguments.sql.isSome

/-- Applies an option with its value, if it has one. -/
def apply (reading : Reading) (option : Opt) (value? : Option Bytes) : Except Stop Reading :=
  match option, value? with
  | .help, _ => .error .help
  | .version, _ => .error .version
  | .verbose, _ =>
    if reading.arguments.verbose then .error (.refused .conflict)
    else .ok { reading with arguments := { reading.arguments with verbose := true } }
  | _, none => .error (.refused .invalidValue)
  | .file, some value =>
    if value.isEmpty then .error (.refused .invalidValue)
    else
      .ok { reading with
        arguments := { reading.arguments with files := reading.arguments.files ++ [value] } }
  | .config, some value =>
    if reading.arguments.config.isSome then .error (.refused .conflict)
    else if value.isEmpty then .error (.refused .invalidValue)
    else .ok { reading with arguments := { reading.arguments with config := some value } }

/-- Settles what is not settled yet. -/
def settle (reading : Reading) : Except Stop Reading :=
  match reading.unsettled with
  | none => .ok reading
  | some (.option option value?) => { reading with unsettled := none }.apply option value?
  | some (.query sql) =>
    match Utf8.decode? sql with
    | none => .error (.refused .invalidUtf8)
    | some sql =>
      .ok { reading with
        arguments := { reading.arguments with sql := some sql }
        unsettled := none }

/-- The option that waits for its value. -/
def waiting? (reading : Reading) : Option Opt :=
  match reading.unsettled with
  | some (.option option none) => if reading.literal then none else some option
  | _ => none

/-- Settles what is unsettled and applies an option that needs no further argument. -/
def applyNow (reading : Reading) (option : Opt) (value? : Option Bytes) : Except Stop Reading := do
  (← reading.settle).apply option value?

/-- Settles what is unsettled and waits for the value of an option. -/
def await (reading : Reading) (option : Opt) : Except Stop Reading := do
  return { ← reading.settle with unsettled := some (.option option none) }

/-- Takes an argument that is no option: the value that is waited for, or the query. -/
def takePlain (reading : Reading) (argument : Bytes) : Except Stop Reading :=
  match reading.waiting? with
  | some option => .ok { reading with unsettled := some (.option option (some argument)) }
  | none =>
    if reading.hasQuery then .error (.refused .unexpectedArgument)
    else do
      return { ← reading.settle with unsettled := some (.query argument) }

/-- Takes an argument that looks like an option but is none. -/
def takeUnknown (reading : Reading) (argument : Bytes) : Except Stop Reading :=
  if reading.hasQuery then .error (.refused .unexpectedArgument)
  else reading.takePlain argument

/-- Takes an argument of two dashes and more, which may give a value after an equals sign. A name
that is no text is refused, even where it could be the query. -/
def takeLong (reading : Reading) (argument body : Bytes) : Except Stop Reading :=
  let attached :=
    match body.dropWhile (· ≠ equalsSign) with
    | _ :: value => some value
    | [] => none
  match Utf8.decode? (body.takeWhile (· ≠ equalsSign)) with
  | none => .error (.refused .unexpectedArgument)
  | some name =>
    match Opt.ofName? name with
    | none => reading.takeUnknown argument
    | some option =>
      match option.takesValue, attached with
      | true, some value => reading.applyNow option (some value)
      | true, none => reading.await option
      | false, some _ => .error (.refused .unexpectedValue)
      | false, none => reading.applyNow option none

/-- Takes the letters after one dash. What follows an option that takes a value is its value, with
an equals sign before it or without. -/
def takeLetters (reading : Reading) : Bytes → Except Stop Reading
  | [] => .ok reading
  | letter :: rest =>
    match Opt.ofLetter? letter with
    | none => .error (.refused .unexpectedArgument)
    | some option =>
      if option.takesValue then
        match rest with
        | [] => reading.await option
        | equalsSign :: value => reading.applyNow option (some value)
        | value => reading.applyNow option (some value)
      else
        match reading.applyNow option none with
        | .error stop => .error stop
        | .ok reading => takeLetters reading rest

/-- Takes one argument. -/
def take (reading : Reading) (argument : Bytes) : Except Stop Reading :=
  if reading.literal then reading.takePlain argument
  else
    match argument with
    | [dash, dash] => .ok { reading with literal := true }
    | dash :: dash :: body => reading.takeLong argument body
    | dash :: letter :: letters =>
      if !reading.hasQuery && (letter :: letters).any fun b => (Opt.ofLetter? b).isNone then
        reading.takeUnknown argument
      else reading.takeLetters (letter :: letters)
    | _ => reading.takePlain argument

/-- The arguments after the last one. A query and files exclude each other. -/
def finish (reading : Reading) : Except Stop Arguments := do
  let settled ← reading.settle
  if settled.arguments.sql.isSome ∧ settled.arguments.files ≠ [] then
    throw (.refused .conflict)
  return settled.arguments

end Reading

/-- Reads arguments, as `Cli::try_parse` does. -/
def Arguments.read (arguments : List Bytes) : Except Stop Arguments := do
  (← arguments.foldlM Reading.take Reading.initial).finish

end ColumnLineage.CommandLine
