import ColumnLineage.CommandLine.Arguments
import ColumnLineage.CommandLine.Dotenv
import ColumnLineage.Description.Inference
import ColumnLineage.Description.Proxy
import ColumnLineage.Json.Writing
import ColumnLineage.Report.Batch
import ColumnLineage.Settings.Loading

/-!
A run of the program: from arguments, environment, files, standard input and a server to the lines
that are printed. Each line is one report; refused arguments and settings are reports too, and ask
the server nothing. The lines are printed once all of them are there, so a run that is broken off
prints none.

The system has told of paths what it tells without reading them, and the directories to look for
variables in: they stand in an `Invocation` beside the files.
-/

namespace ColumnLineage.CommandLine

open Description (Exchange InferenceClient)
open Files (Path ReadError Reader Standing)
open Report (QueryReport FileReport)
open Settings (Environment)

/-- What a run starts from. The directories are the working directory and those above it, the
nearest first, and none where they are not known. -/
structure Invocation where
  arguments : List Bytes
  environment : Environment
  files : Reader
  standing : Path → Standing
  directories : List Path
  input : Except ReadError Bytes
  exchange : Exchange

/-- What a run comes to: the exit status, the printed lines and the exchange with the server. -/
structure Completion where
  status : Nat
  lines : List Text
  exchange : Exchange

/-- The lines of the help, which `Cli` derives. -/
def helpLines : List Text :=
  ["sqlscribe - column lineage and descriptions for a SQL query",
   "",
   "Usage: sqlscribe [OPTIONS] [SQL]",
   "",
   "Arguments:",
   "  [SQL]  SQL query text (read from stdin when omitted)",
   "",
   "Options:",
   "  -f, --file <FILES>     SQL files to process, one result line each",
   "  -c, --config <CONFIG>  Path to config file (default: sqlscribe.toml)",
   "  -v, --verbose          Enable debug logging",
   "  -h, --help             Print help",
   "  -V, --version          Print version"].map String.toList

/-- The line of the version. -/
def versionLine : Text := "sqlscribe 0.1.0".toList

/-- The file of settings that is looked for where none is named: `DEFAULT_CONFIG_FILE`. -/
def defaultSettingsPath : Path := Utf8.encode "sqlscribe.toml".toList

/-- The name of the file of variables. -/
def dotenvName : Bytes := Utf8.encode ".env".toList

/-- The status of a run that is broken off. -/
def brokenOffStatus : Nat := 101

/-- The line of a report, as `to_json` writes it. -/
def lineOf (report : QueryReport) : Text :=
  Json.write report.data

/-- The line of the report on a file. -/
def lineOfFile (report : FileReport) : Text :=
  Json.write report.data

/-- The paths at which the file of variables is looked for, in this order. -/
def dotenvPaths (directories : List Path) : List Path :=
  directories.map fun directory => Path.join directory dotenvName

/-- The environment with the variables of the file of variables, as `dotenvy::dotenv` loads them. A
file that cannot be read counts as none. -/
def loadVariables (invocation : Invocation) : Dotenv.Loading :=
  match Files.firstFile? invocation.standing (dotenvPaths invocation.directories) with
  | none => .loaded invocation.environment
  | some path =>
    match invocation.files path with
    | .ok content => Dotenv.load invocation.environment content
    | .error _ => .loaded invocation.environment

/-- The settings of the named file, or else of the default file if it is there, or else the
defaults, as `load_config` loads them. -/
def loadSettings (invocation : Invocation) (config : Option Path) :
    Except SettingsError Settings :=
  match config with
  | some path => Settings.load invocation.files path
  | none =>
    if (invocation.standing defaultSettingsPath).isThere then
      Settings.load invocation.files defaultSettingsPath
    else .ok Settings.initial

/-- The query of the arguments or else all of standard input, as `query_text` reads it. -/
def queryText (sql : Option Text) (input : Except ReadError Bytes) : Except Text Text :=
  match sql with
  | some sql => .ok sql
  | none =>
    match input.bind Files.textOf with
    | .ok text => .ok text
    | .error e => .error ("Failed to read stdin: ".toList ++ e.message)

/-- The lines of accepted arguments with a client, as `run` writes them, and the exchange after
them. -/
def processArguments (client : InferenceClient) (arguments : Arguments) (files : Reader)
    (input : Except ReadError Bytes) (exchange : Exchange) : List Text × Exchange :=
  match arguments.files with
  | [] =>
    match queryText arguments.sql input with
    | .error message => ([lineOf (.error message)], exchange)
    | .ok sql =>
      let (report, exchange) := Report.process client.service sql exchange
      ([lineOf report], exchange)
  | paths =>
    let (reports, exchange) := Report.processFiles client.service files paths exchange
    (reports.map lineOfFile, exchange)

/-- The exchange as it is behind a proxy of the environment, if there is one: the proxy is no server
in reach. -/
def behindProxy (environment : Environment) (settings : Settings) (exchange : Exchange) : Exchange :=
  if Description.Proxy.takes exchange.names environment settings.apiUrl then { exchange with server := none }
  else exchange

/-- Runs the program: `main`. -/
def run (invocation : Invocation) : Completion :=
  let exchange := invocation.exchange
  match Arguments.read invocation.arguments with
  | .error .help => ⟨0, helpLines, exchange⟩
  | .error .version => ⟨0, [versionLine], exchange⟩
  | .error (.refused e) => ⟨0, [lineOf (.error e.message)], exchange⟩
  | .ok arguments =>
    match loadVariables invocation with
    | .impossible => ⟨brokenOffStatus, [], exchange⟩
    | .loaded environment =>
      match loadSettings invocation arguments.config with
      | .error e => ⟨0, [lineOf (.error e.message)], exchange⟩
      | .ok settings =>
        let client : InferenceClient := ⟨settings, settings.apiKey? environment⟩
        let (lines, exchange) :=
          processArguments client arguments invocation.files invocation.input
            (behindProxy environment settings exchange)
        if exchange.brokenOff then ⟨brokenOffStatus, [], exchange⟩ else ⟨0, lines, exchange⟩

end ColumnLineage.CommandLine
