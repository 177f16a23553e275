import OperatorDispatch.Operator.Basic
import OperatorDispatch.Types.Widening

/-!
# Overloads

An overload is one meaning of an operator: the signature it is written for and the strategy that
carries it out.  The table of overloads never looks inside a strategy.
-/

namespace OperatorDispatch

/-- What a call is looked up by: the identity of its operator and the roots of its operands. -/
structure CallKey where
  /-- The identity of the operator. -/
  operator : UInt64
  /-- The roots of the operands. -/
  roots : List TypeRoot
  deriving DecidableEq, Repr, Hashable

/-- The operator and the signature of an overload. -/
structure Heading where
  /-- The operator. -/
  operator : Operator
  /-- The signature. -/
  signature : Signature
  deriving DecidableEq, Repr

namespace Heading

/-- The key of the calls that match the heading exactly. -/
def key (heading : Heading) : CallKey :=
  ⟨heading.operator.identity, heading.signature⟩

/-- The heading in the form of a call, such as `LOG(DOUBLE)`. -/
def text (heading : Heading) : String :=
  heading.operator.name ++ "(" ++ heading.signature.text ++ ")"

end Heading

/-- One meaning of an operator. -/
structure Overload (σ : Type) extends Heading where
  /-- How a call of the overload is carried out. -/
  strategy : σ
  deriving Repr

/-- What a table of overloads is filled from. -/
structure Catalog (σ : Type) where
  /-- The overloads, in the order of registration. -/
  overloads : List (Overload σ)
  /-- The operators to be registered as context functions, after the overloads. -/
  contextFunctions : List Operator

end OperatorDispatch
