/-!
# Families of SQL types

A family groups the type roots that behave alike, such as the character strings or the exact
numbers.  A set of families is a list; its mask carries one bit per family.
-/

namespace OperatorDispatch

/-- A group of type roots.  A root can belong to several families, or to none. -/
inductive TypeFamily where
  | characterString
  | binaryString
  | numeric
  | integerNumeric
  | exactNumeric
  | approximateNumeric
  | datetime
  | time
  | timestamp
  deriving DecidableEq, Repr

namespace TypeFamily

/-- Every family, lowest bit first. -/
def all : List TypeFamily :=
  [characterString, binaryString, numeric, integerNumeric, exactNumeric, approximateNumeric,
    datetime, time, timestamp]

/-- The name of the family as it is written in a list of families. -/
def name : TypeFamily → String
  | characterString => "CHARACTER_STRING"
  | binaryString => "BINARY_STRING"
  | numeric => "NUMERIC"
  | integerNumeric => "INTEGER_NUMERIC"
  | exactNumeric => "EXACT_NUMERIC"
  | approximateNumeric => "APPROXIMATE_NUMERIC"
  | datetime => "DATETIME"
  | time => "TIME"
  | timestamp => "TIMESTAMP"

/-- The mask of the family alone. -/
def bit (family : TypeFamily) : UInt16 :=
  1 <<< family.ctorIdx.toUInt16

/-- The mask of a set of families. -/
def toMask (families : List TypeFamily) : UInt16 :=
  families.foldl (fun mask family => mask ||| family.bit) 0

/-- The families whose bit is set, lowest bit first.  Bits of no family are dropped. -/
def ofMask (mask : UInt16) : List TypeFamily :=
  all.filter fun family => mask &&& family.bit != 0

/-- Whether every set bit of the mask belongs to a family. -/
def isMask (mask : UInt16) : Bool :=
  toMask (ofMask mask) == mask

end TypeFamily
end OperatorDispatch
