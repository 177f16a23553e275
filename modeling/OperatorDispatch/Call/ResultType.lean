import OperatorDispatch.Call.Error
import OperatorDispatch.Call.Site

/-!
# Types of results

The result of decimal arithmetic gets a precision and a scale that hold every exact result, fitted
into 38 digits.  Digits before the point are kept first; the scale gives way, but not below six
digits unless it was smaller from the start.  The result of a concatenation is as long as its
operands together, up to a largest length.
-/

namespace OperatorDispatch

/-- The binary operations of arithmetic. -/
inductive ArithmeticOp where
  | add
  | subtract
  | multiply
  | divide
  | modulo
  deriving DecidableEq, Repr

namespace Decimal

/-- The digits that a decimal can have. -/
def maxDigits : UInt32 := 38

/-- The fractional digits that an adjustment leaves in place. -/
def keptScale : UInt32 := 6

/-- Fits a precision and a scale into 38 digits.  A precision that fits already is only raised to
one, and its scale is kept. -/
def adjust (precision scale : UInt32) : UInt8 × UInt8 :=
  if precision ≤ maxDigits then
    ((max precision 1).toUInt8, scale.toUInt8)
  else
    let integral := precision - scale
    let room := if integral ≤ maxDigits then maxDigits - integral else 0
    (maxDigits.toUInt8, (max room (min scale keptScale)).toUInt8)

/-- The precision and the scale that hold every result of the operation. -/
def derive (op : ArithmeticOp) (left right : UInt32 × UInt32) : UInt32 × UInt32 :=
  let (p₁, s₁) := left
  let (p₂, s₂) := right
  match op with
  | .add | .subtract =>
      let scale := max s₁ s₂
      (max (p₁ - s₁) (p₂ - s₂) + scale + 1, scale)
  | .multiply => (p₁ + p₂, s₁ + s₂)
  | .divide =>
      let scale := max keptScale (s₁ + p₂ + 1)
      (p₁ - s₁ + s₂ + scale, scale)
  | .modulo =>
      let scale := max s₁ s₂
      (min (p₁ - s₁) (p₂ - s₂) + scale, scale)

/-- The precision and the scale of the result of an operation on two decimals. -/
def resultParts (op : ArithmeticOp) (left right : UInt8 × UInt8) : UInt8 × UInt8 :=
  let widen (parts : UInt8 × UInt8) := (parts.1.toUInt32, parts.2.toUInt32)
  let (precision, scale) := derive op (widen left) (widen right)
  adjust precision scale

/-- The type of the result of an operation on two decimals. -/
def resultType (op : ArithmeticOp) (left right : UInt8 × UInt8) : Except TypeError LogicalType :=
  let (precision, scale) := resultParts op left right
  LogicalType.decimal precision scale

end Decimal

namespace CharacterString

/-- The greatest length of a concatenation. -/
def maxLength : UInt32 := 2147483647

/-- The length of two strings together, up to the greatest length. -/
def joinedLength (left right : UInt32) : UInt32 :=
  (min (left.toNat + right.toNat) maxLength.toNat).toUInt32

/-- The type of the concatenation of the operands of a call.  It is `CHAR` only if every operand
is. -/
def concatType (operator : Operator) (operands : List Operand) : Except CallError LogicalType := do
  let lengths ← operands.mapM fun operand =>
    match operand.type.length? with
    | some length => .ok length
    | none => .error (.unsupportedOperand operator.name operand.root)
  let length := lengths.foldl joinedLength 0
  let type :=
    if operands.all (·.root = .char) then LogicalType.char length else LogicalType.varchar length
  type.mapError .invalidResultType

end CharacterString
end OperatorDispatch
