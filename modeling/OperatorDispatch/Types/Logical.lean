import OperatorDispatch.Types.Root

/-!
# SQL types

A SQL type is a root with its parameters and its nullability.  The parameters always fit the
root, since a type carries the proof of it; the constructors that take parameters from outside
say why they refuse them.
-/

namespace OperatorDispatch

/-- The parameters of a SQL type. -/
inductive TypeParams where
  /-- No parameters, as for `INTEGER`. -/
  | none
  /-- The length of a string, in characters or bytes. -/
  | length (length : UInt32)
  /-- The total digits and the fractional digits of a decimal. -/
  | decimal (precision scale : UInt8)
  /-- The fractional digits of the seconds of a time. -/
  | precision (digits : UInt8)
  deriving DecidableEq, Repr

/-- The largest precision of a decimal. -/
def maxDecimalPrecision : UInt8 := 38

/-- The largest number of fractional digits of a second. -/
def maxTimePrecision : UInt8 := 9

namespace TypeRoot

/-- The parameters of a type of which only the root is given. -/
def defaultParams : TypeRoot → TypeParams
  | char | varchar | binary | varbinary => .length 1
  | decimal => .decimal 10 0
  | time => .precision 0
  | timestamp | timestampWithTimeZone | timestampLtz => .precision 6
  | _ => .none

/-- Whether a type with this root can carry the parameters.  Roots whose parameters cannot be
chosen carry their defaults. -/
def admits (root : TypeRoot) (params : TypeParams) : Bool :=
  match root, params with
  | char, .length length | varchar, .length length => 1 ≤ length
  | decimal, .decimal precision scale =>
      1 ≤ precision && precision ≤ maxDecimalPrecision && scale ≤ precision
  | time, .precision digits | timestamp, .precision digits | timestampLtz, .precision digits =>
      digits ≤ maxTimePrecision
  | root, params => params == root.defaultParams

theorem admits_defaultParams (root : TypeRoot) : root.admits root.defaultParams = true := by
  cases root <;> rfl

end TypeRoot

/-- Why a type cannot be built from the given parameters. -/
inductive TypeError where
  /-- A decimal needs a precision from 1 to 38. -/
  | decimalPrecision (precision : UInt8)
  /-- The scale of a decimal is at most its precision. -/
  | decimalScale (precision scale : UInt8)
  /-- A string has room for at least one character. -/
  | stringLength (root : TypeRoot) (length : UInt32)
  /-- A second has at most nine fractional digits. -/
  | timePrecision (root : TypeRoot) (digits : UInt8)
  deriving DecidableEq, Repr

/-- The text shown to the user. -/
def TypeError.message : TypeError → String
  | decimalPrecision precision =>
      s!"decimal precision must be between 1 and 38 (both inclusive), got {precision.toNat}"
  | decimalScale precision scale =>
      s!"decimal scale must be between 0 and the precision {precision.toNat} (both inclusive), " ++
        s!"got {scale.toNat}"
  | stringLength root length => s!"{root.name} length must be at least 1, got {length.toNat}"
  | timePrecision root digits =>
      s!"{root.name} precision must be between 0 and 9 (both inclusive), got {digits.toNat}"

/-- A SQL type. -/
structure LogicalType where
  /-- The type without its parameters. -/
  root : TypeRoot
  /-- The parameters. -/
  params : TypeParams
  /-- Whether values of the type may be NULL. -/
  nullable : Bool
  /-- The parameters fit the root. -/
  admitted : root.admits params = true
  deriving DecidableEq, Repr

namespace LogicalType

/-- The nullable type with this root and its default parameters. -/
def simple (root : TypeRoot) : LogicalType where
  root
  params := root.defaultParams
  nullable := true
  admitted := root.admits_defaultParams

/-- The nullable type with these parameters, or the given cause if the root does not admit them. -/
def build (root : TypeRoot) (params : TypeParams) (cause : TypeError) :
    Except TypeError LogicalType :=
  if admitted : root.admits params = true then
    .ok { root, params, nullable := true, admitted }
  else
    .error cause

/-- The type `CHAR(length)`. -/
def char (length : UInt32) : Except TypeError LogicalType :=
  build .char (.length length) (.stringLength .char length)

/-- The type `VARCHAR(length)`. -/
def varchar (length : UInt32) : Except TypeError LogicalType :=
  build .varchar (.length length) (.stringLength .varchar length)

/-- The type `DECIMAL(precision, scale)`.  A precision out of range is reported first. -/
def decimal (precision scale : UInt8) : Except TypeError LogicalType :=
  build .decimal (.decimal precision scale) <|
    if 1 ≤ precision ∧ precision ≤ maxDecimalPrecision then
      .decimalScale precision scale
    else
      .decimalPrecision precision

/-- The type `TIME(digits)`. -/
def time (digits : UInt8) : Except TypeError LogicalType :=
  build .time (.precision digits) (.timePrecision .time digits)

/-- The type `TIMESTAMP(digits)`. -/
def timestamp (digits : UInt8) : Except TypeError LogicalType :=
  build .timestamp (.precision digits) (.timePrecision .timestamp digits)

/-- The type `TIMESTAMP_LTZ(digits)`. -/
def timestampLtz (digits : UInt8) : Except TypeError LogicalType :=
  build .timestampLtz (.precision digits) (.timePrecision .timestampLtz digits)

/-- The type with the given nullability. -/
def withNullable (type : LogicalType) (nullable : Bool) : LogicalType :=
  { type with nullable }

/-- The `NOT NULL` variant of the type. -/
def notNull (type : LogicalType) : LogicalType :=
  type.withNullable false

/-- Precision and scale of a decimal. -/
def decimalParts? (type : LogicalType) : Option (UInt8 × UInt8) :=
  match type.params with
  | .decimal precision scale => some (precision, scale)
  | _ => none

/-- Fractional digits of the seconds of a time or timestamp. -/
def timePrecision? (type : LogicalType) : Option UInt8 :=
  match type.params with
  | .precision digits => some digits
  | _ => none

/-- The length of a string type. -/
def length? (type : LogicalType) : Option UInt32 :=
  match type.params with
  | .length length => some length
  | _ => none

/-- The type without the mark of its nullability.  The zone of a zoned timestamp follows its
precision. -/
def baseText (root : TypeRoot) : TypeParams → String
  | .none => root.name
  | .length length => root.name ++ "(" ++ toString length.toNat ++ ")"
  | .decimal precision scale =>
      root.name ++ "(" ++ toString precision.toNat ++ ", " ++ toString scale.toNat ++ ")"
  | .precision digits =>
      match root with
      | .timestampWithTimeZone => "TIMESTAMP(" ++ toString digits.toNat ++ ") WITH TIME ZONE"
      | root => root.name ++ "(" ++ toString digits.toNat ++ ")"

/-- The SQL text of the type; a type is nullable unless the text says `NOT NULL`. -/
def text (type : LogicalType) : String :=
  baseText type.root type.params ++ if type.nullable then "" else " NOT NULL"

/-- The SQL texts of a list of types, with commas between them. -/
def listText (types : List LogicalType) : String :=
  ", ".intercalate (types.map text)

end LogicalType
end OperatorDispatch
