import OperatorDispatch.Types.Family

/-!
# Type roots

The root of a SQL type is the type without its parameters: every `DECIMAL(p, s)` has the root
`DECIMAL`.  Overloads are chosen by the roots of the operands alone.
-/

namespace OperatorDispatch

/-- A SQL type without its parameters and its nullability. -/
inductive TypeRoot where
  | char
  | varchar
  | boolean
  | binary
  | varbinary
  | decimal
  | tinyInt
  | smallInt
  | integer
  | bigInt
  | float
  | double
  | date
  | time
  | timestamp
  | timestampWithTimeZone
  | timestampLtz
  | intervalYearMonth
  | intervalDayTime
  | array
  | multiset
  | map
  | row
  | raw
  | symbol
  | null
  deriving DecidableEq, Repr, Hashable

namespace TypeRoot

/-- Every root, in the order that `compare` follows. -/
def all : List TypeRoot :=
  [char, varchar, boolean, binary, varbinary, decimal, tinyInt, smallInt, integer, bigInt, float,
    double, date, time, timestamp, timestampWithTimeZone, timestampLtz, intervalYearMonth,
    intervalDayTime, array, multiset, map, row, raw, symbol, null]

/-- The position of the root in `all`. -/
def index (root : TypeRoot) : Nat :=
  root.ctorIdx

instance : Ord TypeRoot where
  compare left right := compare left.index right.index

/-- The SQL name of the root. -/
def name : TypeRoot → String
  | char => "CHAR"
  | varchar => "VARCHAR"
  | boolean => "BOOLEAN"
  | binary => "BINARY"
  | varbinary => "VARBINARY"
  | decimal => "DECIMAL"
  | tinyInt => "TINYINT"
  | smallInt => "SMALLINT"
  | integer => "INTEGER"
  | bigInt => "BIGINT"
  | float => "FLOAT"
  | double => "DOUBLE"
  | date => "DATE"
  | time => "TIME"
  | timestamp => "TIMESTAMP"
  | timestampWithTimeZone => "TIMESTAMP WITH TIME ZONE"
  | timestampLtz => "TIMESTAMP_LTZ"
  | intervalYearMonth => "INTERVAL YEAR TO MONTH"
  | intervalDayTime => "INTERVAL DAY TO SECOND"
  | array => "ARRAY"
  | multiset => "MULTISET"
  | map => "MAP"
  | row => "ROW"
  | raw => "RAW"
  | symbol => "SYMBOL"
  | null => "NULL"

/-- The root with the given SQL name. -/
def ofName? (text : String) : Option TypeRoot :=
  all.find? fun root => root.name == text

/-- The families of the root, lowest bit first. -/
def families : TypeRoot → List TypeFamily
  | char | varchar => [.characterString]
  | binary | varbinary => [.binaryString]
  | decimal => [.numeric, .exactNumeric]
  | tinyInt | smallInt | integer | bigInt => [.numeric, .integerNumeric, .exactNumeric]
  | float | double => [.numeric, .approximateNumeric]
  | date => [.datetime]
  | time => [.datetime, .time]
  | timestamp | timestampWithTimeZone | timestampLtz => [.datetime, .timestamp]
  | _ => []

/-- Whether the root belongs to each of the given families. -/
def isInAll (root : TypeRoot) (families : List TypeFamily) : Bool :=
  families.all root.families.contains

/-- Whether the root belongs to at least one of the given families. -/
def isInAny (root : TypeRoot) (families : List TypeFamily) : Bool :=
  families.any root.families.contains

/-- The roots that belong to each of the given families. -/
def membersOfAll (families : List TypeFamily) : List TypeRoot :=
  all.filter (·.isInAll families)

/-- The roots that belong to at least one of the given families. -/
def membersOfAny (families : List TypeFamily) : List TypeRoot :=
  all.filter (·.isInAny families)

/-- The roots that take part in implicit widening, narrow to wide. -/
def numericPrimitives : List TypeRoot :=
  [tinyInt, smallInt, integer, bigInt, float, double]

/-- Whether the root is an integer or an approximate number. -/
def isNumericPrimitive (root : TypeRoot) : Bool :=
  root.isInAny [.integerNumeric, .approximateNumeric]

end TypeRoot
end OperatorDispatch
