import OperatorDispatch.Call.Emission
import OperatorDispatch.Call.ResultType
import OperatorDispatch.Clock.ContextFunction
import OperatorDispatch.Machine.Comparison
import OperatorDispatch.Overload.Builder

/-!
# Strategies

A strategy compiles the calls of one family of operators.  Once the number of operands is checked,
each family makes its own checks, pushes the operands and writes one last instruction.
-/

namespace OperatorDispatch

/-- The comparison operators. -/
inductive ComparisonOp where
  | equals
  | notEquals
  | lessThan
  | lessThanOrEqual
  | greaterThan
  | greaterThanOrEqual
  deriving DecidableEq, Repr

/-- The relation that the operator tests. -/
def ComparisonOp.kind : ComparisonOp → CompareKind
  | equals => .eq
  | notEquals => .ne
  | lessThan => .lt
  | lessThanOrEqual => .le
  | greaterThan => .gt
  | greaterThanOrEqual => .ge

/-- The mathematical functions of the runtime. -/
inductive MathFunction where
  /-- The natural logarithm of one operand, or the logarithm to a base of two. -/
  | log
  | log10
  | ln
  | exp
  | sqrt
  | power
  /-- The absolute value, which has the type of its operand. -/
  | abs
  deriving DecidableEq, Repr

/-- The functions of the runtime on character strings. -/
inductive StringFunction where
  | upper
  | lower
  | charLength
  | concat
  deriving DecidableEq, Repr

/-- How the calls of an overload are compiled. -/
inductive Strategy where
  /-- Arithmetic on numeric primitives. -/
  | arithmetic (op : ArithmeticOp)
  /-- Arithmetic on decimals. -/
  | decimalArithmetic (op : ArithmeticOp)
  /-- The unary minus. -/
  | negate
  /-- A comparison. -/
  | comparison (op : ComparisonOp)
  /-- A mathematical function. -/
  | math (function : MathFunction)
  /-- A function on character strings. -/
  | string (function : StringFunction)
  /-- A context function. -/
  | timePoint (function : ContextFunction)
  deriving DecidableEq, Repr

instance : OfContextFunction Strategy where
  ofContextFunction := .timePoint

/-- The instruction of a binary operation on numeric primitives.  There is no remainder of
approximate numbers. -/
def ArithmeticOp.opcode? (op : ArithmeticOp) (root : TypeRoot) : Option Opcode :=
  match root, op with
  | .integer, add => some .addI32
  | .integer, subtract => some .subI32
  | .integer, multiply => some .mulI32
  | .integer, divide => some .divI32
  | .integer, modulo => some .modI32
  | .bigInt, add => some .addI64
  | .bigInt, subtract => some .subI64
  | .bigInt, multiply => some .mulI64
  | .bigInt, divide => some .divI64
  | .bigInt, modulo => some .modI64
  | .float, add => some .addF32
  | .float, subtract => some .subF32
  | .float, multiply => some .mulF32
  | .float, divide => some .divF32
  | .double, add => some .addF64
  | .double, subtract => some .subF64
  | .double, multiply => some .mulF64
  | .double, divide => some .divF64
  | _, _ => none

/-- The instruction of a binary operation on decimals. -/
def ArithmeticOp.decimalOpcode : ArithmeticOp → Opcode
  | add => .addDec
  | subtract => .subDec
  | multiply => .mulDec
  | divide => .divDec
  | modulo => .modDec

/-- The instruction that negates a value with the given root. -/
def negationOpcode? : TypeRoot → Option Opcode
  | .integer => some .negI32
  | .bigInt => some .negI64
  | .float => some .negF32
  | .double => some .negF64
  | .decimal => some .negDec
  | _ => none

namespace CallSite

/-- The refusal of operands with a root for which there is no instruction. -/
def unsupported (site : CallSite) (root : TypeRoot) : CallError :=
  .unsupportedOperand site.operator.name root

/-- The root that both operands of a binary call are matched on. -/
def binaryRoot (site : CallSite) : Except CallError TypeRoot :=
  match site.signature with
  | [left, right] => if left = right then .ok left else .error (site.unsupported right)
  | signature => .error (.arityMismatch site.operator.name 2 signature.length)

/-- The root that the overload expects of the first operand. -/
def firstRoot (site : CallSite) : Except CallError TypeRoot :=
  match site.target? 0 with
  | some root => .ok root
  | none => .error (site.unsupported .null)

/-- The type of the first operand.  The strategies that ask for it take at least one operand. -/
def firstType (site : CallSite) : Except CallError LogicalType :=
  match site.operands with
  | operand :: _ => .ok operand.type
  | [] => .error (site.unsupported .null)

/-- What there is for operands with a root, if there is something. -/
def supported {α : Type} (site : CallSite) (root : TypeRoot) : Option α → Except CallError α
  | some value => .ok value
  | none => .error (site.unsupported root)

/-- A type of results, which may be NULL as soon as one operand may be. -/
def withNullness (site : CallSite) (type : LogicalType) : LogicalType :=
  type.withNullable site.anyNullable

/-- Precision and scale of an operand. -/
def decimalParts (site : CallSite) (operand : Operand) : Except CallError (UInt8 × UInt8) :=
  match operand.type.decimalParts? with
  | some parts => .ok parts
  | none => .error (site.unsupported operand.root)

end CallSite

namespace Emission

/-- Pushes the operands of a call. -/
def load (site : CallSite) : Emission Unit :=
  operands site.operands site.signature

/-- Pushes the operands and calls the function of the runtime that carries out the operator.  There
are at most two operands, so that their number fits a byte. -/
def builtinCall (site : CallSite) : Emission Unit := do
  load site
  builtin site.operator site.arity.toUInt8

/-- Arithmetic on numeric primitives. -/
def arithmetic (op : ArithmeticOp) (site : CallSite) : Emission LogicalType := do
  let root ← liftExcept site.binaryRoot
  let opcode ← liftExcept (site.supported root (op.opcode? root))
  load site
  instruction opcode []
  return .simple root

/-- Arithmetic on decimals.  The instruction carries precision and scale of the result. -/
def decimalArithmetic (op : ArithmeticOp) (site : CallSite) : Emission LogicalType := do
  match site.operands with
  | [left, right] =>
      let leftParts ← liftExcept (site.decimalParts left)
      let rightParts ← liftExcept (site.decimalParts right)
      let derived := Decimal.resultType op leftParts rightParts
      let result ← liftExcept (derived.mapError CallError.invalidResultType)
      let (precision, scale) ← liftExcept (site.supported result.root result.decimalParts?)
      load site
      instruction op.decimalOpcode [precision, scale]
      return result
  | operands => throw (.arityMismatch site.operator.name 2 operands.length)

/-- The unary minus.  A negated decimal keeps the type of the operand. -/
def negate (site : CallSite) : Emission LogicalType := do
  let root ← liftExcept site.firstRoot
  let opcode ← liftExcept (site.supported root (negationOpcode? root))
  let result ← if root = .decimal then liftExcept site.firstType else pure (.simple root)
  load site
  instruction opcode []
  return result

/-- A comparison. -/
def comparison (op : ComparisonOp) (site : CallSite) : Emission LogicalType := do
  let root ← liftExcept site.binaryRoot
  let valueClass ← liftExcept (site.supported root (ValueClass.ofRoot? root))
  load site
  instruction .compare [op.kind.code, valueClass.code]
  return .simple .boolean

/-- A mathematical function.  All but the absolute value give doubles. -/
def math (function : MathFunction) (site : CallSite) : Emission LogicalType := do
  let result ← match function with
    | .abs => do
        let root ← liftExcept site.firstRoot
        if root = .decimal then
          liftExcept site.firstType
        else if root.isNumericPrimitive then
          pure (.simple root)
        else
          throw (site.unsupported root)
    | _ => pure (.simple .double)
  builtinCall site
  return result

/-- A function on character strings. -/
def string (function : StringFunction) (site : CallSite) : Emission LogicalType := do
  let result ← match function with
    | .upper | .lower => liftExcept site.firstType
    | .charLength => pure (.simple .integer)
    | .concat => liftExcept (CharacterString.concatType site.operator site.operands)
  builtinCall site
  return result

/-- A context function. -/
def timePoint (function : ContextFunction) : Emission LogicalType := do
  let result ← liftExcept (function.timePoint.type.mapError CallError.invalidResultType)
  instruction .timePoint [function.timePoint.code, function.scope.code]
  return result

end Emission

namespace Strategy

/-- The least and the greatest number of operands. -/
def arity : Strategy → Nat × Nat
  | arithmetic _ | decimalArithmetic _ | comparison _ | math .power | string .concat => (2, 2)
  | math .log => (1, 2)
  | negate | math _ | string _ => (1, 1)
  | timePoint _ => (0, 0)

/-- Refuses a call with a wrong number of operands. -/
def checkArity (strategy : Strategy) (site : CallSite) : Except CallError Unit :=
  let (least, greatest) := strategy.arity
  if least ≤ site.arity ∧ site.arity ≤ greatest then
    if site.signature.length = site.arity then
      .ok ()
    else
      .error (.arityMismatch site.operator.name site.signature.length site.arity)
  else
    .error (.arityMismatch site.operator.name least site.arity)

/-- Compiles the call and gives the type of its result. -/
def emit (strategy : Strategy) (site : CallSite) : Emission LogicalType := do
  liftExcept (strategy.checkArity site)
  match strategy with
  | arithmetic op => site.withNullness <$> Emission.arithmetic op site
  | decimalArithmetic op => site.withNullness <$> Emission.decimalArithmetic op site
  | negate => site.withNullness <$> Emission.negate site
  | comparison op => site.withNullness <$> Emission.comparison op site
  | math function => site.withNullness <$> Emission.math function site
  | string function => site.withNullness <$> Emission.string function site
  | timePoint function => Emission.timePoint function

end Strategy
end OperatorDispatch
