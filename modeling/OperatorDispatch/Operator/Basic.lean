import OperatorDispatch.Operator.Digest

/-!
# Operators

An operator is a named function, a binary operator or a prefix operator.  The name alone does not
identify it: binary and prefix `-` print alike.  The identity is a 64-bit word computed from the
name, the kind and an optional tag that tells overloads of one name apart.  Two operators are the
same exactly when their identities agree; the name and the kind serve diagnostics.
-/

namespace OperatorDispatch

/-- The syntactic kind of an operator. -/
inductive OperatorKind where
  /-- A call by name, such as `LOG(x)`. -/
  | function
  /-- An operator between its operands, such as `a + b`. -/
  | binary
  /-- An operator before its operand, such as `-a`. -/
  | prefixOp
  deriving DecidableEq, Repr

namespace OperatorKind

/-- The word that keeps the identities of the kind apart from those of the other kinds. -/
def salt : OperatorKind → UInt64
  | function => 0x5ea77ffbcdf5f302
  | binary => 0x3e9f5d2a8c7b1403
  | prefixOp => 0x7d3c8b4a92e15f6d

/-- The name of the kind. -/
def name : OperatorKind → String
  | function => "Function"
  | binary => "Binary"
  | prefixOp => "Prefix"

end OperatorKind

/-- A SQL function or operator. -/
structure Operator where
  /-- The word by which operators are told apart. -/
  identity : UInt64
  /-- The name to display; several operators may share it. -/
  name : String
  /-- The syntactic kind. -/
  kind : OperatorKind
  deriving DecidableEq, Repr

namespace Operator

/-- The factor that sets an identity apart before a tag is added.  It is odd, so multiplication by
it loses nothing. -/
def separator : UInt64 := 0x4bc94d6bd06053ad

/-- The word that keeps tags apart from names. -/
def tagSalt : UInt64 := 0x2fac10b63a6cc57c

/-- The identity of an operator under an arbitrary digest of texts.  An empty tag is no tag. -/
def identityWith (digest : String → UInt64) (kind : OperatorKind) (name tag : String) : UInt64 :=
  let untagged := kind.salt ^^^ digest name
  if tag = "" then
    untagged
  else
    untagged * separator + (tagSalt ^^^ digest tag)

/-- The operator with the given tag. -/
def tagged (kind : OperatorKind) (name tag : String) : Operator where
  identity := identityWith Digest.ofText kind name tag
  name
  kind

/-- The function with the given name. -/
def function (name : String) : Operator :=
  tagged .function name ""

/-- The binary operator with the given symbol. -/
def binary (symbol : String) : Operator :=
  tagged .binary symbol ""

/-- The prefix operator with the given symbol. -/
def prefixOp (symbol : String) : Operator :=
  tagged .prefixOp symbol ""

/-- Whether two operators are the same, whatever they are called. -/
def same (left right : Operator) : Bool :=
  left.identity == right.identity

/-- Operators are ordered by their identities. -/
instance : Ord Operator where
  compare left right := compare left.identity right.identity

end Operator

/-- The sixteen lower-case hexadecimal digits of a word. -/
def hexText (word : UInt64) : String :=
  String.ofList <| (List.range 16).map fun place =>
    Nat.digitChar (word.toNat >>> (60 - 4 * place) % 16)

/-- The operator with its kind and identity, for diagnostics. -/
def Operator.describe (operator : Operator) : String :=
  s!"OperatorId({operator.name} {operator.kind.name}, 0x{hexText operator.identity})"

end OperatorDispatch
