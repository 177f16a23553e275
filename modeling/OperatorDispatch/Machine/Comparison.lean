import OperatorDispatch.Types.Root

/-!
# Comparisons

A comparison instruction names the relation that is tested and the class of the two values, which
tells the machine how they are represented.
-/

namespace OperatorDispatch

/-- The relation that a comparison tests. -/
inductive CompareKind where
  | eq
  | ne
  | lt
  | le
  | gt
  | ge
  deriving DecidableEq, Repr

namespace CompareKind

/-- Every relation, in the order of its code. -/
def all : List CompareKind :=
  [eq, ne, lt, le, gt, ge]

/-- The code of the relation within an instruction. -/
def code (kind : CompareKind) : UInt8 :=
  kind.ctorIdx.toUInt8

/-- The relation with the given code. -/
def ofCode? (code : UInt8) : Option CompareKind :=
  all[code.toNat]?

end CompareKind

/-- The representation of comparable values. -/
inductive ValueClass where
  | i32
  | i64
  | f32
  | f64
  | decimal
  | boolean
  | str
  | bytes
  | date
  | time
  | timestamp
  deriving DecidableEq, Repr

namespace ValueClass

/-- Every class, in the order of its code. -/
def all : List ValueClass :=
  [i32, i64, f32, f64, decimal, boolean, str, bytes, date, time, timestamp]

/-- The code of the class within an instruction. -/
def code (valueClass : ValueClass) : UInt8 :=
  valueClass.ctorIdx.toUInt8

/-- The class with the given code. -/
def ofCode? (code : UInt8) : Option ValueClass :=
  all[code.toNat]?

/-- The class of the values with the given root, if they can be compared.  The integers below
`BIGINT` share one class. -/
def ofRoot? : TypeRoot → Option ValueClass
  | .tinyInt | .smallInt | .integer => some i32
  | .bigInt => some i64
  | .float => some f32
  | .double => some f64
  | .decimal => some decimal
  | .boolean => some boolean
  | .char | .varchar => some str
  | .binary | .varbinary => some bytes
  | .date => some date
  | .time => some time
  | .timestamp | .timestampWithTimeZone | .timestampLtz => some timestamp
  | _ => none

end ValueClass
end OperatorDispatch
