import OperatorDispatch.Types.Root

/-!
# The instruction set

Calls are compiled for a stack machine.  An instruction is one byte, its opcode, followed by a
fixed number of operand bytes.  Every instruction other than a push takes its inputs from the
stack and leaves one result, which is NULL as soon as one input is NULL.
-/

namespace OperatorDispatch

/-- The operation of an instruction.  The code of an opcode is its position in this list. -/
inductive Opcode where
  /-- Pushes a pooled constant; the operand is an index of one byte. -/
  | constant
  /-- Pushes a pooled constant; the operand is an index of two bytes. -/
  | constantWide
  /-- Pushes NULL. -/
  | pushNull
  /-- Pushes an input of the enclosing expression; the operand is its slot. -/
  | loadOperand
  | i8ToI16
  | i8ToI32
  | i8ToI64
  | i8ToF32
  | i8ToF64
  | i16ToI32
  | i16ToI64
  | i16ToF32
  | i16ToF64
  | i32ToI64
  | i32ToF32
  | i32ToF64
  | i64ToF32
  | i64ToF64
  | f32ToF64
  | addI32
  | subI32
  | mulI32
  | divI32
  | modI32
  | negI32
  | addI64
  | subI64
  | mulI64
  | divI64
  | modI64
  | negI64
  | addF32
  | subF32
  | mulF32
  | divF32
  | negF32
  | addF64
  | subF64
  | mulF64
  | divF64
  | negF64
  /-- Adds decimals; the operands are precision and scale of the result, here and below. -/
  | addDec
  | subDec
  | mulDec
  | divDec
  | modDec
  | negDec
  /-- Compares two values; the operands are the comparison and the class of the values. -/
  | compare
  /-- Calls a function of the runtime; the operands are the index of the pooled identity of the
  operator, of two bytes, and the number of arguments. -/
  | callBuiltin
  /-- Reads the clock; the operands are the time point and the scope. -/
  | timePoint
  deriving DecidableEq, Repr

namespace Opcode

/-- Every opcode, in the order of its code. -/
def all : List Opcode :=
  [constant, constantWide, pushNull, loadOperand, i8ToI16, i8ToI32, i8ToI64, i8ToF32, i8ToF64,
    i16ToI32, i16ToI64, i16ToF32, i16ToF64, i32ToI64, i32ToF32, i32ToF64, i64ToF32, i64ToF64,
    f32ToF64, addI32, subI32, mulI32, divI32, modI32, negI32, addI64, subI64, mulI64, divI64,
    modI64, negI64, addF32, subF32, mulF32, divF32, negF32, addF64, subF64, mulF64, divF64,
    negF64, addDec, subDec, mulDec, divDec, modDec, negDec, compare, callBuiltin, timePoint]

/-- The code of the opcode. -/
def code (opcode : Opcode) : UInt8 :=
  opcode.ctorIdx.toUInt8

/-- The opcode with the given code. -/
def ofCode? (code : UInt8) : Option Opcode :=
  all[code.toNat]?

@[simp]
theorem ofCode?_code (opcode : Opcode) : ofCode? opcode.code = some opcode := by
  cases opcode <;> rfl

/-- The number of operand bytes after the opcode. -/
def operandSize : Opcode → Nat
  | constant | loadOperand => 1
  | constantWide | addDec | subDec | mulDec | divDec | modDec | compare | timePoint => 2
  | callBuiltin => 3
  | _ => 0

/-- The conversion from one root to another, for the pairs that widen. -/
def widening? : TypeRoot → TypeRoot → Option Opcode
  | .tinyInt, .smallInt => some i8ToI16
  | .tinyInt, .integer => some i8ToI32
  | .tinyInt, .bigInt => some i8ToI64
  | .tinyInt, .float => some i8ToF32
  | .tinyInt, .double => some i8ToF64
  | .smallInt, .integer => some i16ToI32
  | .smallInt, .bigInt => some i16ToI64
  | .smallInt, .float => some i16ToF32
  | .smallInt, .double => some i16ToF64
  | .integer, .bigInt => some i32ToI64
  | .integer, .float => some i32ToF32
  | .integer, .double => some i32ToF64
  | .bigInt, .float => some i64ToF32
  | .bigInt, .double => some i64ToF64
  | .float, .double => some f32ToF64
  | _, _ => none

/-- The mnemonic of the opcode. -/
def mnemonic : Opcode → String
  | constant => "Constant"
  | constantWide => "ConstantWide"
  | pushNull => "PushNull"
  | loadOperand => "LoadOperand"
  | i8ToI16 => "I8toI16"
  | i8ToI32 => "I8toI32"
  | i8ToI64 => "I8toI64"
  | i8ToF32 => "I8toF32"
  | i8ToF64 => "I8toF64"
  | i16ToI32 => "I16toI32"
  | i16ToI64 => "I16toI64"
  | i16ToF32 => "I16toF32"
  | i16ToF64 => "I16toF64"
  | i32ToI64 => "I32toI64"
  | i32ToF32 => "I32toF32"
  | i32ToF64 => "I32toF64"
  | i64ToF32 => "I64toF32"
  | i64ToF64 => "I64toF64"
  | f32ToF64 => "F32toF64"
  | addI32 => "AddI32"
  | subI32 => "SubI32"
  | mulI32 => "MulI32"
  | divI32 => "DivI32"
  | modI32 => "ModI32"
  | negI32 => "NegI32"
  | addI64 => "AddI64"
  | subI64 => "SubI64"
  | mulI64 => "MulI64"
  | divI64 => "DivI64"
  | modI64 => "ModI64"
  | negI64 => "NegI64"
  | addF32 => "AddF32"
  | subF32 => "SubF32"
  | mulF32 => "MulF32"
  | divF32 => "DivF32"
  | negF32 => "NegF32"
  | addF64 => "AddF64"
  | subF64 => "SubF64"
  | mulF64 => "MulF64"
  | divF64 => "DivF64"
  | negF64 => "NegF64"
  | addDec => "AddDec"
  | subDec => "SubDec"
  | mulDec => "MulDec"
  | divDec => "DivDec"
  | modDec => "ModDec"
  | negDec => "NegDec"
  | compare => "Compare"
  | callBuiltin => "CallBuiltin"
  | timePoint => "TimePoint"

/-- The opcode with the given mnemonic. -/
def ofMnemonic? (text : String) : Option Opcode :=
  all.find? fun opcode => opcode.mnemonic == text

end Opcode
end OperatorDispatch
