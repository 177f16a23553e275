import OperatorDispatch.Operator.Basic

/-!
# The standard operators

The operators of the SQL dialect: arithmetic, comparisons, mathematical functions, functions on
character strings, and the functions that read the clock.
-/

namespace OperatorDispatch
namespace Operator

-- Arithmetic.

def plus : Operator := binary "+"
def minus : Operator := binary "-"
def multiply : Operator := binary "*"
def divide : Operator := binary "/"
def mod : Operator := function "MOD"
def unaryMinus : Operator := prefixOp "-"

-- Comparisons.

def equals : Operator := binary "="
def notEquals : Operator := binary "<>"
def lessThan : Operator := binary "<"
def lessThanOrEqual : Operator := binary "<="
def greaterThan : Operator := binary ">"
def greaterThanOrEqual : Operator := binary ">="

-- Mathematical functions.

def log : Operator := function "LOG"
def log10 : Operator := function "LOG10"
def ln : Operator := function "LN"
def exp : Operator := function "EXP"
def power : Operator := function "POWER"
def sqrt : Operator := function "SQRT"
def abs : Operator := function "ABS"

-- Functions on character strings.

def upper : Operator := function "UPPER"
def lower : Operator := function "LOWER"
def charLength : Operator := function "CHAR_LENGTH"
def concat : Operator := function "CONCAT"

-- Functions that read the clock.

def localTime : Operator := function "LOCALTIME"
def localTimestamp : Operator := function "LOCALTIMESTAMP"
def currentTime : Operator := function "CURRENT_TIME"
def currentTimestamp : Operator := function "CURRENT_TIMESTAMP"
def currentDate : Operator := function "CURRENT_DATE"
def now : Operator := function "NOW"
def currentRowTimestamp : Operator := function "CURRENT_ROW_TIMESTAMP"

/-- The standard operators, each with the label it is known by. -/
def standard : List (String × Operator) :=
  [("PLUS", plus), ("MINUS", minus), ("MULTIPLY", multiply), ("DIVIDE", divide), ("MOD", mod),
    ("UNARY_MINUS", unaryMinus), ("EQUALS", equals), ("NOT_EQUALS", notEquals),
    ("LESS_THAN", lessThan), ("LESS_THAN_OR_EQUAL", lessThanOrEqual),
    ("GREATER_THAN", greaterThan), ("GREATER_THAN_OR_EQUAL", greaterThanOrEqual), ("LOG", log),
    ("LOG10", log10), ("LN", ln), ("EXP", exp), ("POWER", power), ("SQRT", sqrt), ("ABS", abs),
    ("UPPER", upper), ("LOWER", lower), ("CHAR_LENGTH", charLength), ("CONCAT", concat),
    ("LOCALTIME", localTime), ("LOCALTIMESTAMP", localTimestamp), ("CURRENT_TIME", currentTime),
    ("CURRENT_TIMESTAMP", currentTimestamp), ("CURRENT_DATE", currentDate), ("NOW", now),
    ("CURRENT_ROW_TIMESTAMP", currentRowTimestamp)]

end Operator
end OperatorDispatch
