import OperatorDispatch.Machine.Opcode

/-!
# Bytecode

Bytecode is a sequence of instructions, written one after the other.  Words of two bytes have the
high byte first.  Reading goes from opcode to opcode and skips the operand bytes between them; it
ends at the first byte that is no opcode.
-/

namespace OperatorDispatch

/-- A sequence of encoded instructions. -/
structure Bytecode where
  /-- The bytes. -/
  bytes : List UInt8 := []
  deriving DecidableEq, Repr

namespace Bytecode

/-- The two bytes of a word, high byte first. -/
def bigEndian (word : UInt16) : List UInt8 :=
  [(word >>> 8).toUInt8, word.toUInt8]

/-- The word of two bytes, high byte first. -/
def ofBigEndian (high low : UInt8) : UInt16 :=
  high.toUInt16 <<< 8 ||| low.toUInt16

/-- The number of bytes. -/
def size (code : Bytecode) : Nat :=
  code.bytes.length

/-- Whether there are no bytes. -/
def isEmpty (code : Bytecode) : Bool :=
  code.bytes.isEmpty

/-- Writes bytes at the end. -/
def append (code : Bytecode) (bytes : List UInt8) : Bytecode :=
  { code with bytes := code.bytes ++ bytes }

/-- Writes an instruction at the end. -/
def appendInstruction (code : Bytecode) (opcode : Opcode) (operands : List UInt8) : Bytecode :=
  code.append (opcode.code :: operands)

/-- The byte at an offset. -/
def byte? (code : Bytecode) (offset : Nat) : Option UInt8 :=
  code.bytes[offset]?

/-- The word of the two bytes from an offset on. -/
def word? (code : Bytecode) (offset : Nat) : Option UInt16 :=
  match code.byte? offset, code.byte? (offset + 1) with
  | some high, some low => some (ofBigEndian high low)
  | _, _ => none

/-- The opcode at an offset. -/
def opcode? (code : Bytecode) (offset : Nat) : Option Opcode :=
  (code.byte? offset).bind Opcode.ofCode?

/-- The opcodes of a list of bytes, each with its offset; the first byte is at `offset`. -/
def instructionsFrom (offset : Nat) : List UInt8 → List (Nat × Opcode)
  | [] => []
  | byte :: rest =>
      match Opcode.ofCode? byte with
      | none => []
      | some opcode =>
          (offset, opcode) ::
            instructionsFrom (offset + 1 + opcode.operandSize) (rest.drop opcode.operandSize)
termination_by bytes => bytes.length
decreasing_by simp only [List.length_cons, List.length_drop]; omega

/-- The opcodes, each with its offset. -/
def instructions (code : Bytecode) : List (Nat × Opcode) :=
  instructionsFrom 0 code.bytes

/-- The opcodes. -/
def opcodes (code : Bytecode) : List Opcode :=
  code.instructions.map (·.2)

/-- One line per instruction: the offset and the mnemonic of the opcode. -/
def listing (code : Bytecode) : List String :=
  code.instructions.map fun (offset, opcode) => toString offset ++ " " ++ opcode.mnemonic

/-- The bytes as pairs of lower-case hexadecimal digits. -/
def hexText (code : Bytecode) : String :=
  String.ofList <| code.bytes.flatMap fun byte =>
    [Nat.digitChar (byte.toNat / 16), Nat.digitChar (byte.toNat % 16)]

end Bytecode
end OperatorDispatch
