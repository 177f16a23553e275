import OperatorDispatch.Settings.Document

/-!
# Settings in files
-/

namespace OperatorDispatch

/-- A file system, as far as settings are concerned. -/
structure FileSystem where
  /-- The text of the file at a path, or why it cannot be read. -/
  readText : String → Except FileError String

/-- The settings in the file at a path. -/
def Settings.load (system : FileSystem) (path : String) : Except SettingsError Settings :=
  match system.readText path with
  | .ok document => ofDocument document
  | .error cause => .error (.unreadable path cause)

end OperatorDispatch
