import OperatorDispatch.Clock.ContextFunction
import OperatorDispatch.Types.Widening

/-!
# Diagnostic events

Building a table, choosing an overload and compiling a call each leave events behind.  An event
has a level and a text of the form `message field=value …`.
-/

namespace OperatorDispatch

/-- The importance of an event. -/
inductive EventLevel where
  | info
  | debug
  | trace
  deriving DecidableEq, Repr

/-- The name of the level. -/
def EventLevel.name : EventLevel → String
  | info => "INFO"
  | debug => "DEBUG"
  | trace => "TRACE"

/-- The figures that describe a finished table. -/
structure TableSummary where
  /-- The number of overloads. -/
  overloads : Nat
  /-- The number of distinct operators. -/
  operators : Nat
  /-- The number of context functions that were registered. -/
  contextFunctions : Nat
  /-- The number of registrations that replaced an earlier one. -/
  overwritten : Nat
  /-- The execution mode. -/
  mode : ExecutionMode
  deriving DecidableEq, Repr

/-- Something worth noting that happened on the way. -/
inductive Event where
  /-- A registration replaced an earlier one; `heading` is the text of the overload. -/
  | overwritten (heading : String)
  /-- A context function was specialised for the execution mode. -/
  | contextFunction (function : ContextFunction)
  /-- A table was built. -/
  | tableBuilt (summary : TableSummary)
  /-- A compilation context was set up. -/
  | contextReady (overloads : Nat) (mode : ExecutionMode)
  /-- An overload has exactly the roots of the operands. -/
  | exactMatch (operator : String) (signature : Signature)
  /-- An overload accepts the operands after widening. -/
  | approximateMatch (operator : String) (operands signature : Signature)
  /-- No overload accepts the operands. -/
  | noMatch (operator : String) (operands : Signature)
  /-- No overload takes an empty list of operands. -/
  | noNullary (operator : String)
  /-- A call could not be compiled for want of an overload. -/
  | unmatchedCall (operator : String) (operands : List LogicalType)
  /-- A call was compiled to a number of bytes. -/
  | compiledCall (operator : String) (signature : Signature) (result : LogicalType) (bytes : Nat)
  deriving DecidableEq, Repr

namespace Event

/-- The level at which the event is reported. -/
def level : Event → EventLevel
  | tableBuilt _ => .info
  | overwritten _ | contextFunction _ | contextReady _ _ | unmatchedCall _ _ => .debug
  | exactMatch _ _ | approximateMatch _ _ _ | noMatch _ _ | noNullary _
  | compiledCall _ _ _ _ => .trace

/-- Whether the event reports the outcome of a search for an overload. -/
def isMatchOutcome : Event → Bool
  | exactMatch _ _ | approximateMatch _ _ _ | noMatch _ _ | noNullary _ => true
  | _ => false

/-- The message of the event and its fields. -/
def describe : Event → String
  | overwritten heading => s!"registry key registered twice; overwriting key={heading}"
  | contextFunction function =>
      s!"resolved context function operator={function.operator.name} " ++
        s!"row_stable={function.rowStable} mode={function.mode.name}"
  | tableBuilt summary =>
      s!"call registry built entries={summary.overloads} operators={summary.operators} " ++
        s!"context_functions={summary.contextFunctions} overwritten={summary.overwritten} " ++
        s!"mode={summary.mode.name}"
  | contextReady overloads mode => s!"context initialized entries={overloads} mode={mode.name}"
  | exactMatch operator signature =>
      s!"exact match operator={operator} signature={signature.text}"
  | approximateMatch operator operands signature =>
      s!"approximate match operator={operator} operands={operands.text} " ++
        s!"signature={signature.text}"
  | noMatch operator operands => s!"no match operator={operator} operands={operands.text}"
  | noNullary operator => s!"no zero-arity entry operator={operator}"
  | unmatchedCall operator operands =>
      s!"no matching signature operator={operator} operands={LogicalType.listText operands}"
  | compiledCall operator signature result bytes =>
      s!"compiled call operator={operator} signature={signature.text} result={result.text} " ++
        s!"bytes={bytes}"

/-- The line of the event in a log. -/
def line (event : Event) : String :=
  event.level.name ++ " " ++ event.describe

end Event
end OperatorDispatch
