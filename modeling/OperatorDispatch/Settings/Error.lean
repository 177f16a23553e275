/-!
# Why settings cannot be read
-/

namespace OperatorDispatch

/-- Why the text of a file cannot be read, in the words of the file system. -/
structure FileError where
  /-- The text shown to the user. -/
  message : String
  deriving DecidableEq, Repr

/-- Why settings cannot be read. -/
inductive SettingsError where
  /-- The file cannot be read. -/
  | unreadable (path : String) (cause : FileError)
  /-- The text is no document of settings. -/
  | malformed
  deriving DecidableEq, Repr

/-- The text shown to the user. -/
def SettingsError.message : SettingsError → String
  | unreadable path cause => s!"failed to read {path}: {cause.message}"
  | malformed => "invalid configuration"

end OperatorDispatch
