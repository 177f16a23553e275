/-!
# Settings

Two choices shape the table of overloads: whether the surrounding job runs over an unbounded
input, and what happens when an overload is registered twice.
-/

namespace OperatorDispatch

/-- Whether the surrounding job runs over an unbounded or a bounded input. -/
inductive ExecutionMode where
  /-- Continuous execution over an unbounded input. -/
  | streaming
  /-- Bounded execution that runs to completion. -/
  | batch
  deriving DecidableEq, Repr

namespace ExecutionMode

/-- The word for the mode in settings and diagnostics. -/
def name : ExecutionMode → String
  | streaming => "streaming"
  | batch => "batch"

/-- The mode with the given word. -/
def ofName? (text : String) : Option ExecutionMode :=
  [streaming, batch].find? fun mode => mode.name == text

end ExecutionMode

/-- What happens when an overload is registered twice. -/
inductive DuplicatePolicy where
  /-- The later registration replaces the strategy and keeps the position. -/
  | overwrite
  /-- No table is built. -/
  | reject
  deriving DecidableEq, Repr

namespace DuplicatePolicy

/-- The word for the policy in settings. -/
def name : DuplicatePolicy → String
  | overwrite => "overwrite"
  | reject => "reject"

/-- The policy with the given word. -/
def ofName? (text : String) : Option DuplicatePolicy :=
  [overwrite, reject].find? fun policy => policy.name == text

end DuplicatePolicy

/-- The settings of a table of overloads. -/
structure Settings where
  /-- The execution mode that clock functions are specialised for. -/
  mode : ExecutionMode := .streaming
  /-- The treatment of repeated registrations. -/
  duplicates : DuplicatePolicy := .reject
  deriving DecidableEq, Repr

end OperatorDispatch
