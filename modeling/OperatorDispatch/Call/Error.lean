import OperatorDispatch.Types.Logical

/-!
# Why a call cannot be compiled
-/

namespace OperatorDispatch

/-- Why a call cannot be compiled. -/
inductive CallError where
  /-- No overload of the operator accepts the operands. -/
  | noMatchingSignature (operator : String) (operands : List LogicalType)
  /-- The strategy takes another number of operands. -/
  | arityMismatch (operator : String) (expected found : Nat)
  /-- The slot cannot be named by an instruction. -/
  | slotOverflow (slot : Nat)
  /-- The constant cannot be named by an instruction. -/
  | poolOverflow (limit : Nat)
  /-- There is no conversion from one root to the other. -/
  | unsupportedConversion (source target : TypeRoot)
  /-- The strategy has no instruction for operands with the root. -/
  | unsupportedOperand (operator : String) (root : TypeRoot)
  /-- The type of the result cannot be built. -/
  | invalidResultType (cause : TypeError)
  deriving DecidableEq, Repr

/-- The text shown to the user. -/
def CallError.message : CallError → String
  | noMatchingSignature operator operands =>
      s!"no matching signature for {operator}({LogicalType.listText operands})"
  | arityMismatch operator expected found =>
      s!"{operator} expects {expected} operand(s), found {found}"
  | slotOverflow slot => s!"operand slot {slot} exceeds the maximum of 255"
  | poolOverflow limit => s!"constant pool exceeds {limit} entries"
  | unsupportedConversion source target => s!"cannot convert {source.name} to {target.name}"
  | unsupportedOperand operator root => s!"{operator} has no instruction for {root.name} operands"
  | invalidResultType cause => cause.message

end OperatorDispatch
