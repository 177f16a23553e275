import OperatorDispatch.Overload.Builder
import Std.Data.HashMap

/-!
# Tables of overloads

A table holds each overload once, in the order of first registration, and knows the positions of
the overloads of each operator.  Once built it never changes.
-/

namespace OperatorDispatch

/-- The positions of the overloads of each operator, in ascending order. -/
def positionsByOperator {σ : Type} (overloads : List (Overload σ)) :
    Std.HashMap UInt64 (List Nat) :=
  overloads.zipIdx.foldl
    (fun groups (overload, position) =>
      groups.alter overload.operator.identity fun group? => some (group?.getD [] ++ [position]))
    ∅

/-- The overloads of all operators. -/
structure OverloadTable (σ : Type) where
  /-- The overloads, in the order of their first registration. -/
  overloads : List (Overload σ)
  /-- The execution mode that context functions were specialised for. -/
  mode : ExecutionMode
  /-- The positions of the overloads of each operator. -/
  byOperator : Std.HashMap UInt64 (List Nat) := positionsByOperator overloads
  /-- The positions are those of the overloads. -/
  grouped : byOperator = positionsByOperator overloads := by rfl

namespace OverloadTable

variable {σ : Type}

/-- The number of overloads. -/
def size (table : OverloadTable σ) : Nat :=
  table.overloads.length

/-- Whether the table holds no overload. -/
def isEmpty (table : OverloadTable σ) : Bool :=
  table.overloads.isEmpty

/-- The positions of the overloads of an operator. -/
def positionsOf (table : OverloadTable σ) (operator : Operator) : List Nat :=
  table.byOperator.getD operator.identity []

/-- The overloads of an operator, in the order of registration. -/
def overloadsOf (table : OverloadTable σ) (operator : Operator) : List (Overload σ) :=
  (table.positionsOf operator).filterMap fun position => table.overloads[position]?

/-- The signatures of an operator, in the order of registration. -/
def signaturesOf (table : OverloadTable σ) (operator : Operator) : List Signature :=
  (table.overloadsOf operator).map (·.signature)

/-- Whether the operator has an overload. -/
def hasOperator (table : OverloadTable σ) (operator : Operator) : Bool :=
  table.byOperator.contains operator.identity

/-- The overload for exactly these roots. -/
def get? (table : OverloadTable σ) (operator : Operator) (roots : List TypeRoot) :
    Option (Overload σ) :=
  table.overloads.find? fun overload => overload.key = ⟨operator.identity, roots⟩

/-- Whether there is an overload for exactly these roots. -/
def contains (table : OverloadTable σ) (operator : Operator) (roots : List TypeRoot) : Bool :=
  (table.get? operator roots).isSome

end OverloadTable

namespace TableBuilder

variable {σ : Type}

/-- The table of the collected overloads.  If repetitions are refused, the first one is the
error. -/
def build (builder : TableBuilder σ) : Except TableError (OverloadTable σ) :=
  match builder.settings.duplicates, builder.repeats with
  | .reject, heading :: _ => .error (.duplicateOverload heading)
  | _, _ => .ok { overloads := builder.overloads, mode := builder.settings.mode }

/-- The figures of the table built from the collected overloads. -/
def summary (builder : TableBuilder σ) (table : OverloadTable σ) : TableSummary where
  overloads := table.size
  operators := table.byOperator.size
  contextFunctions := builder.contextFunctions
  overwritten := builder.repeats.length
  mode := table.mode

/-- The table, and the events up to and including its completion. -/
def finish (builder : TableBuilder σ) : Except TableError (OverloadTable σ) × Array Event :=
  match builder.build with
  | .ok table => (.ok table, builder.journal.push (.tableBuilt (builder.summary table)))
  | .error cause => (.error cause, builder.journal)

/-- Registers context functions until one of them is unknown. -/
def registerContextFunctions [OfContextFunction σ] (builder : TableBuilder σ) :
    List Operator → TableBuilder σ × Option TableError
  | [] => (builder, none)
  | operator :: operators =>
      match builder.registerContextFunction operator with
      | .ok builder => builder.registerContextFunctions operators
      | .error cause => (builder, some cause)

end TableBuilder

namespace OverloadTable

variable {σ : Type}

/-- The table of a catalog, and the events on the way.  The overloads come first, then the context
functions; an unknown context function is reported before any repetition. -/
def ofCatalog [OfContextFunction σ] (settings : Settings) (catalog : Catalog σ) :
    Except TableError (OverloadTable σ) × Array Event :=
  let builder := catalog.overloads.foldl
    (fun builder overload => builder.register overload.toHeading overload.strategy)
    { settings : TableBuilder σ }
  match builder.registerContextFunctions catalog.contextFunctions with
  | (builder, none) => builder.finish
  | (builder, some cause) => (.error cause, builder.journal)

end OverloadTable
end OperatorDispatch
