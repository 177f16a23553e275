import OperatorDispatch.Types.Root

/-!
# Implicit widening and signatures

The six numeric primitives form a chain from `TINYINT` to `DOUBLE`.  An operand may be widened
along the chain, never narrowed, and no other root takes part.  A signature accepts a list of
operand roots when each root equals the signature's root at its position or widens to it.
-/

namespace OperatorDispatch

namespace TypeRoot

/-- The place of a numeric primitive in the widening chain. -/
def wideningRank? : TypeRoot → Option Nat
  | tinyInt => some 0
  | smallInt => some 1
  | integer => some 2
  | bigInt => some 3
  | float => some 4
  | double => some 5
  | _ => none

/-- Whether a value of `source` can be widened to `target`.  A root does not widen to itself. -/
def widensTo (source target : TypeRoot) : Bool :=
  match source.wideningRank?, target.wideningRank? with
  | some narrow, some wide => narrow < wide
  | _, _ => false

/-- The roots that `source` widens to, narrowest first. -/
def wideningTargets (source : TypeRoot) : List TypeRoot :=
  numericPrimitives.filter source.widensTo

/-- Whether an operand with the root `input` may stand where a signature says `candidate`. -/
def accepts (candidate input : TypeRoot) : Bool :=
  candidate == input || input.widensTo candidate

end TypeRoot

/-- The roots of the operands that an overload is written for, in order. -/
abbrev Signature := List TypeRoot

namespace Signature

/-- Whether operands with the roots `input` fit the signature at every position. -/
def accepts : Signature → List TypeRoot → Bool
  | [], [] => true
  | candidate :: signature, root :: input => candidate.accepts root && accepts signature input
  | _, _ => false

/-- The names of the roots, with commas between them. -/
def text (signature : Signature) : String :=
  ", ".intercalate (signature.map TypeRoot.name)

end Signature
end OperatorDispatch
