import OperatorDispatch.Overload.Basic
import OperatorDispatch.Types.Logical

/-!
# Call sites

An operand is a value together with its SQL type.  The value is an input of the enclosing
expression or a literal; the type alone decides how the call is matched.
-/

namespace OperatorDispatch

/-- A value known at compile time. -/
inductive Literal where
  | int (value : Int64)
  /-- A double, by its bit pattern. -/
  | double (bits : UInt64)
  | string (text : String)
  | null
  deriving DecidableEq, Repr

/-- Where the value of an operand comes from. -/
inductive OperandSource where
  /-- An evaluated input of the enclosing expression. -/
  | slot (slot : Nat)
  /-- A literal. -/
  | literal (value : Literal)
  deriving DecidableEq, Repr

/-- One operand of a call. -/
structure Operand where
  /-- Where the value comes from. -/
  source : OperandSource
  /-- The type of the value. -/
  type : LogicalType
  deriving DecidableEq, Repr

namespace Operand

/-- The operand that reads a slot. -/
def ofSlot (slot : Nat) (type : LogicalType) : Operand :=
  ⟨.slot slot, type⟩

/-- The operand with a literal value. -/
def ofLiteral (value : Literal) (type : LogicalType) : Operand :=
  ⟨.literal value, type⟩

/-- The literal NULL, as a value of the nullable variant of a type. -/
def null (type : LogicalType) : Operand :=
  ofLiteral .null (type.withNullable true)

/-- The root of the operand's type. -/
def root (operand : Operand) : TypeRoot :=
  operand.type.root

end Operand

/-- A call and the signature of the overload chosen for it. -/
structure CallSite where
  /-- The operator that is called. -/
  operator : Operator
  /-- The signature of the overload. -/
  signature : Signature
  /-- The operands. -/
  operands : List Operand
  deriving DecidableEq, Repr

namespace CallSite

/-- The number of operands. -/
def arity (site : CallSite) : Nat :=
  site.operands.length

/-- Whether some operand may be NULL. -/
def anyNullable (site : CallSite) : Bool :=
  site.operands.any (·.type.nullable)

/-- The root that the overload expects at a position. -/
def target? (site : CallSite) (position : Nat) : Option TypeRoot :=
  site.signature[position]?

end CallSite
end OperatorDispatch
