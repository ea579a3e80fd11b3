import ColumnLineage.Data.Basic
import ColumnLineage.Text.Blank

/-!
Settings of the description service. Each setting has a default, and data replace exactly those that
they name.
-/

namespace ColumnLineage

open Decimal (Binary64)

/-- What the description service is told: `ServiceConfig`. -/
structure Settings where
  apiUrl : Text
  apiKeyEnv : Text
  maxNewTokens : Nat
  temperature : Binary64
  returnFullText : Bool
  requestTimeout : Option Nat
  deriving DecidableEq

/-- Why settings could not be had: `ConfigError`. -/
inductive SettingsError where
  | io (reason : Text)
  | parse (reason : Text)
  deriving DecidableEq

/-- The wording of an error. -/
def SettingsError.message : SettingsError → Text
  | io reason => "IO error: ".toList ++ reason
  | parse reason => "Parse error: ".toList ++ reason

namespace Settings

/-- The settings where nothing is said: `ServiceConfig::default`. The temperature is 0.3. -/
def initial : Settings :=
  { apiUrl := "https://api-inference.huggingface.co/models/google/gemma-2-2b-it".toList
    apiKeyEnv := "HUGGINGFACE_API_KEY".toList
    maxNewTokens := 200
    temperature := ⟨0x3fd3333333333333⟩
    returnFullText := false
    requestTimeout := none }

/-- The names of the settings, in their order. -/
def names : List Text :=
  ["api_url", "api_key_env", "max_new_tokens", "temperature", "return_full_text",
   "request_timeout_secs"].map String.toList

/-- The name under which settings stand in a document. -/
def sectionName : Text := "service".toList

/-- The settings that the values of the named fields give. -/
def ofFields? : List (Option Data) → Option Settings
  | [url, key, tokens, temperature, full, timeout] => do
    return {
      apiUrl := ← Data.default? initial.apiUrl Data.text? url
      apiKeyEnv := ← Data.default? initial.apiKeyEnv Data.text? key
      maxNewTokens := ← Data.default? initial.maxNewTokens (Data.natBelow? 0x100000000) tokens
      temperature := ← Data.default? initial.temperature Data.binary64? temperature
      returnFullText := ← Data.default? initial.returnFullText Data.bool? full
      requestTimeout := ←
        Data.default? initial.requestTimeout (Data.nullable? (Data.natBelow? 0x10000000000000000)) timeout }
  | _ => none

/-- The settings that data give, in a list by position. -/
def ofData? (allowed : Nat → Bool) (d : Data) : Option Settings :=
  (d.fields? names allowed).bind ofFields?

/-- The settings of a document, whose lists must not hold more items than there are fields unless
`allowed` says so. -/
def ofDocument? (allowed : Nat → Nat → Bool) (d : Data) : Option Settings :=
  match d.fields? [sectionName] (allowed 1) with
  | some [field] => Data.default? initial (ofData? (allowed names.length)) field
  | _ => none

end Settings

end ColumnLineage
