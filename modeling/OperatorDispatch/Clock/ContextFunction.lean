import OperatorDispatch.Operator.Standard
import OperatorDispatch.Settings.Basic
import OperatorDispatch.Types.Logical

/-!
# Context functions

A context function takes no operands: its value comes from the clock of the execution context.
There are seven of them.  What a context function yields is its time point; how often the clock is
read follows from the time point, from whether the value is held within a record, and from the
execution mode.
-/

namespace OperatorDispatch

/-- The point in time that a context function yields. -/
inductive TimePoint where
  | localTime
  | localTimestamp
  | currentTime
  | currentTimestamp
  | currentDate
  | now
  | currentRowTimestamp
  deriving DecidableEq, Repr

namespace TimePoint

/-- Every time point, in the order of its code. -/
def all : List TimePoint :=
  [localTime, localTimestamp, currentTime, currentTimestamp, currentDate, now,
    currentRowTimestamp]

/-- The operator that yields the time point. -/
def operator : TimePoint → Operator
  | localTime => .localTime
  | localTimestamp => .localTimestamp
  | currentTime => .currentTime
  | currentTimestamp => .currentTimestamp
  | currentDate => .currentDate
  | now => .now
  | currentRowTimestamp => .currentRowTimestamp

/-- The code of the time point within an instruction. -/
def code (point : TimePoint) : UInt8 :=
  point.ctorIdx.toUInt8

/-- The fractional digits of the timestamps. -/
def timestampPrecision : UInt8 := 3

/-- The type of the value, as far as it can be built.  The value is never NULL. -/
def type (point : TimePoint) : Except TypeError LogicalType := do
  let type ← match point with
    | localTime | currentTime => LogicalType.time 0
    | localTimestamp => LogicalType.timestamp timestampPrecision
    | currentTimestamp | now | currentRowTimestamp => LogicalType.timestampLtz timestampPrecision
    | currentDate => .ok (.simple .date)
  return type.notNull

/-- The type of the value, which can always be built. -/
def resultType : TimePoint → LogicalType
  | localTime | currentTime =>
      { root := .time, params := .precision 0, nullable := false, admitted := rfl }
  | localTimestamp =>
      { root := .timestamp, params := .precision 3, nullable := false, admitted := rfl }
  | currentTimestamp | now | currentRowTimestamp =>
      { root := .timestampLtz, params := .precision 3, nullable := false, admitted := rfl }
  | currentDate => (LogicalType.simple .date).notNull

end TimePoint

/-- How often the clock is read. -/
inductive EvalScope where
  /-- At every evaluation. -/
  | perCall
  /-- Once for each record. -/
  | perRecord
  /-- Once, when the query starts. -/
  | perQuery
  deriving DecidableEq, Repr

namespace EvalScope

/-- Every scope, in the order of its code. -/
def all : List EvalScope :=
  [perCall, perRecord, perQuery]

/-- The code of the scope within an instruction. -/
def code (scope : EvalScope) : UInt8 :=
  scope.ctorIdx.toUInt8

/-- The scope with the given code. -/
def ofCode? (code : UInt8) : Option EvalScope :=
  all[code.toNat]?

end EvalScope

/-- A context function specialised for an execution mode. -/
structure ContextFunction where
  /-- The operator it is called by. -/
  operator : Operator
  /-- The point in time that it yields. -/
  timePoint : TimePoint
  /-- Whether the value is held within one record. -/
  rowStable : Bool
  /-- The execution mode. -/
  mode : ExecutionMode
  deriving DecidableEq, Repr

namespace ContextFunction

/-- The operators that call a context function, each with its time point and with whether all
evaluations within one record see the same value. -/
def known : List (Operator × TimePoint × Bool) :=
  [(.localTime, .localTime, true),
    (.localTimestamp, .localTimestamp, true),
    (.currentTime, .currentTime, false),
    (.currentTimestamp, .currentTimestamp, false),
    (.currentDate, .currentDate, false),
    (.now, .now, false),
    (.currentRowTimestamp, .currentRowTimestamp, false)]

/-- The context function called by the operator, if it is one of the seven. -/
def resolve? (operator : Operator) (mode : ExecutionMode) : Option ContextFunction :=
  (known.find? fun (caller, _) => caller.same operator).map fun (caller, timePoint, rowStable) =>
    { operator := caller, timePoint, rowStable, mode }

/-- How often the function reads the clock.  The timestamp of the current row follows the row in
every mode; otherwise a bounded job reads once. -/
def scope (function : ContextFunction) : EvalScope :=
  if function.timePoint = .currentRowTimestamp then
    .perCall
  else
    match function.mode, function.rowStable with
    | .batch, _ => .perQuery
    | .streaming, true => .perRecord
    | .streaming, false => .perCall

end ContextFunction
end OperatorDispatch
