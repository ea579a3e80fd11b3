import ColumnLineage.Json.Reading
import ColumnLineage.Settings.Basic
import ColumnLineage.Toml.Document

/-!
Settings as JSON and TOML text, and the key that the environment holds for them.
-/

namespace ColumnLineage.Settings

/-- The settings of a JSON text. A list has at most as many items as there are settings. -/
def ofJson? (s : Text) : Option Settings :=
  (Json.read? s).bind (ofDocument? fun fields items => items ≤ fields)

/-- The settings of a TOML text. Items of a list beyond the settings are passed over. -/
def ofToml? (s : Text) : Option Settings :=
  (Toml.read? s).bind (ofDocument? fun _ _ => true)

/-- The reason of a parse error. -/
def malformed : Text := "not a document of settings".toList

/-- The settings of a TOML text, or the error: `Config::from_toml`. -/
def ofToml (s : Text) : Except SettingsError Settings :=
  match ofToml? s with
  | some settings => .ok settings
  | none => .error (.parse malformed)

/-- The variables of an environment with their values. -/
abbrev Environment := List (Text × Text)

/-- Whether a text can be the name of a variable: it has a character, no equals sign and no zero. -/
def isVariableName (name : Text) : Bool :=
  !name.isEmpty && !name.contains '=' && !name.contains '\x00'

/-- The value of a variable. -/
def Environment.value? (environment : Environment) (name : Text) : Option Text :=
  if isVariableName name then (environment.find? (·.1 = name)).map (·.2) else none

/-- The key that the environment holds for settings: `Config::api_key`. One of blanks only counts as
absent. -/
def apiKey? (settings : Settings) (environment : Environment) : Option Text :=
  (environment.value? settings.apiKeyEnv).filter fun key => !(Text.trim key).isEmpty

end ColumnLineage.Settings
