import OperatorDispatch.Overload.Table

/-!
# Choosing an overload

A call is matched on the roots of its operands.  An overload with exactly these roots is taken
first; otherwise the first overload of the operator, in the order of registration, whose signature
accepts the roots.  A call without operands is matched exactly or not at all.
-/

namespace OperatorDispatch

/-- How a call was matched. -/
inductive MatchKind where
  /-- The roots of the operands are the signature. -/
  | exact
  /-- At least one operand is widened. -/
  | approximate
  deriving DecidableEq, Repr

/-- The word for the kind of a match. -/
def MatchKind.name : MatchKind → String
  | exact => "exact"
  | approximate => "approximate"

/-- An overload chosen for a call. -/
structure Resolution (σ : Type) where
  /-- The overload. -/
  overload : Overload σ
  /-- How the call was matched. -/
  kind : MatchKind
  deriving Repr

namespace OverloadTable

variable {σ : Type}

/-- The first overload of the operator that accepts the roots. -/
def firstAccepting? (table : OverloadTable σ) (operator : Operator) (roots : List TypeRoot) :
    Option (Overload σ) :=
  (table.overloadsOf operator).find? fun overload => overload.signature.accepts roots

/-- The overload chosen for operands with the given roots. -/
def resolve (table : OverloadTable σ) (operator : Operator) (roots : List TypeRoot) :
    Option (Resolution σ) :=
  match table.get? operator roots with
  | some overload => some ⟨overload, .exact⟩
  | none =>
      if roots.isEmpty then
        none
      else
        (table.firstAccepting? operator roots).map fun overload => ⟨overload, .approximate⟩

/-- The strategy chosen for operands with the given roots. -/
def lookup (table : OverloadTable σ) (operator : Operator) (roots : List TypeRoot) : Option σ :=
  (table.resolve operator roots).map (·.overload.strategy)

/-- The event that reports the outcome of a choice. -/
def outcomeEvent (operator : Operator) (roots : List TypeRoot) :
    Option (Resolution σ) → Event
  | some ⟨overload, .exact⟩ => .exactMatch operator.name overload.signature
  | some ⟨overload, .approximate⟩ => .approximateMatch operator.name roots overload.signature
  | none => if roots.isEmpty then .noNullary operator.name else .noMatch operator.name roots

end OverloadTable
end OperatorDispatch
