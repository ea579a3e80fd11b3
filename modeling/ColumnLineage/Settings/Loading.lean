import ColumnLineage.Files.Reader
import ColumnLineage.Settings.Document

/-!
Loading settings from a file.
-/

namespace ColumnLineage.Settings

/-- The settings of the file at a path, as `Config::from_file` loads them. A file that cannot be
read is named in the error. -/
def load (files : Files.Reader) (path : Files.Path) : Except SettingsError Settings :=
  match Files.readText files path with
  | .error e => .error (.io (Utf8.decodeLenient path ++ ": ".toList ++ e.message))
  | .ok text => ofToml text

end ColumnLineage.Settings
