import OperatorDispatch.Call.Error
import OperatorDispatch.Overload.Builder
import OperatorDispatch.Settings.Error

/-!
# Failures of the whole

Each part of the library has its own errors.  A failure unites them for those who use several parts
at once, and tells whether the work can go on.
-/

namespace OperatorDispatch

/-- Anything that can go wrong. -/
inductive Failure where
  /-- The settings cannot be read. -/
  | settings (cause : SettingsError)
  /-- The table of overloads cannot be built. -/
  | table (cause : TableError)
  /-- A call cannot be compiled. -/
  | call (cause : CallError)
  /-- A type cannot be built. -/
  | type (cause : TypeError)
  deriving DecidableEq, Repr

namespace Failure

/-- The text shown to the user. -/
def message : Failure → String
  | settings cause => "configuration error: " ++ cause.message
  | table cause => "registry construction failed: " ++ cause.message
  | call cause => "code generation failed: " ++ cause.message
  | type cause => "invalid type: " ++ cause.message

/-- Whether no calls can be compiled after the failure. -/
def isFatal : Failure → Bool
  | settings _ | table _ => true
  | call _ | type _ => false

end Failure
end OperatorDispatch
