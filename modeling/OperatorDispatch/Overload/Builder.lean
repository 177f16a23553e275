import OperatorDispatch.Overload.Basic
import OperatorDispatch.Report.Event

/-!
# Registering overloads

Overloads are collected one after the other.  An overload that is registered again keeps its
position and its first heading and takes the new strategy; whether that is acceptable is decided
when the table is built.
-/

namespace OperatorDispatch

/-- Strategies that can carry out a context function. -/
class OfContextFunction (σ : Type) where
  /-- The strategy of the context function. -/
  ofContextFunction : ContextFunction → σ

/-- Why no table of overloads is built. -/
inductive TableError where
  /-- The operator is not one of the context functions. -/
  | unknownContextFunction (operator : String)
  /-- An overload was registered twice although that is refused. -/
  | duplicateOverload (heading : Heading)
  deriving DecidableEq, Repr

/-- The text shown to the user. -/
def TableError.message : TableError → String
  | unknownContextFunction operator => s!"unsupported context function: {operator}"
  | duplicateOverload heading => s!"duplicate registry entry: {heading.text}"

/-- The context function called by the operator, or the error that there is none. -/
def ContextFunction.resolve (operator : Operator) (mode : ExecutionMode) :
    Except TableError ContextFunction :=
  match resolve? operator mode with
  | some function => .ok function
  | none => .error (.unknownContextFunction operator.name)

/-- The overloads collected so far. -/
structure TableBuilder (σ : Type) where
  /-- The settings of the table. -/
  settings : Settings
  /-- The overloads, in the order of their first registration. -/
  overloads : List (Overload σ) := []
  /-- The headings that were registered again, once for each repetition. -/
  repeats : List Heading := []
  /-- The number of context functions registered. -/
  contextFunctions : Nat := 0
  /-- The events so far, oldest first. -/
  journal : Array Event := #[]

namespace TableBuilder

variable {σ : Type}

/-- Gives the overload with the key a new strategy. -/
def replace (overloads : List (Overload σ)) (key : CallKey) (strategy : σ) :
    List (Overload σ) :=
  overloads.map fun overload => if overload.key = key then { overload with strategy } else overload

/-- Registers an overload. -/
def register (builder : TableBuilder σ) (heading : Heading) (strategy : σ) : TableBuilder σ :=
  match builder.overloads.find? (fun overload => overload.key = heading.key) with
  | some held =>
      { builder with
        overloads := replace builder.overloads heading.key strategy
        repeats := builder.repeats ++ [held.toHeading]
        journal := builder.journal.push (.overwritten held.text) }
  | none => { builder with overloads := builder.overloads ++ [{ heading with strategy }] }

/-- Registers a context function, specialised for the execution mode, as an overload without
operands. -/
def registerContextFunction [OfContextFunction σ] (builder : TableBuilder σ)
    (operator : Operator) : Except TableError (TableBuilder σ) := do
  let function ← ContextFunction.resolve operator builder.settings.mode
  let noted :=
    { builder with
      contextFunctions := builder.contextFunctions + 1
      journal := builder.journal.push (.contextFunction { function with operator }) }
  return noted.register ⟨operator, []⟩ (OfContextFunction.ofContextFunction function)

end TableBuilder
end OperatorDispatch
