import OperatorDispatch.Call.Strategy

/-!
# The standard catalog

The overloads of the standard operators.  Numeric overloads are listed narrow to wide, so operands
that must be widened take the narrowest overload they fit.
-/

namespace OperatorDispatch
namespace StandardCatalog

/-- The numeric primitives with arithmetic of their own, narrow to wide. -/
def arithmeticRoots : List TypeRoot :=
  [.integer, .bigInt, .float, .double]

/-- The roots of all numbers with overloads of their own. -/
def numericRoots : List TypeRoot :=
  arithmeticRoots ++ [.decimal]

/-- The roots of character strings. -/
def stringRoots : List TypeRoot :=
  TypeRoot.membersOfAll [.characterString]

/-- The roots that can be compared, numbers first. -/
def comparableRoots : List TypeRoot :=
  numericRoots ++ .boolean :: TypeRoot.membersOfAny [.characterString, .datetime]

/-- The overload of an operator for one signature. -/
def entry (operator : Operator) (signature : Signature) (strategy : Strategy) :
    Overload Strategy :=
  { operator, signature, strategy }

/-- The arithmetic operators. -/
def arithmeticOps : List (Operator × ArithmeticOp) :=
  [(.plus, .add), (.minus, .subtract), (.multiply, .multiply), (.divide, .divide),
    (.mod, .modulo)]

/-- The comparison operators. -/
def comparisonOps : List (Operator × ComparisonOp) :=
  [(.equals, .equals), (.notEquals, .notEquals), (.lessThan, .lessThan),
    (.lessThanOrEqual, .lessThanOrEqual), (.greaterThan, .greaterThan),
    (.greaterThanOrEqual, .greaterThanOrEqual)]

/-- The mathematical functions of one operand on doubles and decimals. -/
def unaryMath : List (Operator × MathFunction) :=
  [(.log, .log), (.log10, .log10), (.ln, .ln), (.exp, .exp), (.sqrt, .sqrt)]

/-- The mathematical functions of two operands. -/
def binaryMath : List (Operator × MathFunction) :=
  [(.log, .log), (.power, .power)]

/-- The functions of one character string. -/
def unaryString : List (Operator × StringFunction) :=
  [(.upper, .upper), (.lower, .lower), (.charLength, .charLength)]

/-- Binary arithmetic.  A remainder is taken of exact numbers only. -/
def arithmetic : List (Overload Strategy) :=
  arithmeticOps.flatMap fun (operator, op) =>
    let roots := arithmeticRoots.filter fun root =>
      !(op = .modulo && root.isInAll [.approximateNumeric])
    roots.map (fun root => entry operator [root, root] (.arithmetic op)) ++
      [entry operator [.decimal, .decimal] (.decimalArithmetic op)]

/-- The unary minus. -/
def negation : List (Overload Strategy) :=
  numericRoots.map fun root => entry .unaryMinus [root] .negate

/-- Comparisons of two values of one root. -/
def comparison : List (Overload Strategy) :=
  comparisonOps.flatMap fun (operator, op) =>
    comparableRoots.map fun root => entry operator [root, root] (.comparison op)

/-- Mathematical functions. -/
def math : List (Overload Strategy) :=
  unaryMath.flatMap (fun (operator, function) =>
      [.double, .decimal].map fun root => entry operator [root] (.math function)) ++
    binaryMath.flatMap (fun (operator, function) =>
      [.double, .decimal].map fun root => entry operator [root, root] (.math function)) ++
    numericRoots.map fun root => entry .abs [root] (.math .abs)

/-- Functions on character strings. -/
def strings : List (Overload Strategy) :=
  unaryString.flatMap (fun (operator, function) =>
      stringRoots.map fun root => entry operator [root] (.string function)) ++
    stringRoots.flatMap fun left =>
      stringRoots.map fun right => entry .concat [left, right] (.string .concat)

end StandardCatalog

/-- The overloads of the standard operators, and all context functions. -/
def standardCatalog : Catalog Strategy where
  overloads :=
    StandardCatalog.arithmetic ++ StandardCatalog.negation ++ StandardCatalog.comparison ++
      StandardCatalog.math ++ StandardCatalog.strings
  contextFunctions := ContextFunction.known.map (·.1)

end OperatorDispatch
