import OperatorDispatch.Machine.Bytecode

/-!
# Instructions and their encoding

An instruction is an opcode with as many operand bytes as the opcode asks for.  Bytecode that is
the encoding of instructions is read back as these instructions, each at the offset at which it was
written, and reading ends with the last byte.
-/

namespace OperatorDispatch

/-- An opcode with its operand bytes. -/
structure Instruction where
  /-- The opcode. -/
  opcode : Opcode
  /-- The operand bytes. -/
  operands : List UInt8
  /-- There are as many operand bytes as the opcode asks for. -/
  sized : operands.length = opcode.operandSize

namespace Instruction

/-- The bytes of the instruction. -/
def encode (instruction : Instruction) : List UInt8 :=
  instruction.opcode.code :: instruction.operands

/-- The bytes of instructions, one after the other. -/
def encodeAll (instructions : List Instruction) : List UInt8 :=
  instructions.flatMap encode

/-- The opcodes of instructions with their offsets; the first one is at `offset`. -/
def located (offset : Nat) : List Instruction → List (Nat × Opcode)
  | [] => []
  | instruction :: instructions =>
      (offset, instruction.opcode) ::
        located (offset + 1 + instruction.opcode.operandSize) instructions

theorem length_encode (instruction : Instruction) :
    instruction.encode.length = 1 + instruction.opcode.operandSize := by
  rw [encode, List.length_cons, instruction.sized, Nat.add_comm]

theorem encodeAll_cons (instruction : Instruction) (instructions : List Instruction) :
    encodeAll (instruction :: instructions) = instruction.encode ++ encodeAll instructions := rfl

theorem encodeAll_singleton (instruction : Instruction) :
    encodeAll [instruction] = instruction.encode :=
  List.append_nil _

theorem encodeAll_append (left right : List Instruction) :
    encodeAll (left ++ right) = encodeAll left ++ encodeAll right :=
  List.flatMap_append

end Instruction

namespace Bytecode

open Instruction

/-- Reading encoded instructions yields them, and then whatever follows them. -/
theorem instructionsFrom_encodeAll (offset : Nat) (instructions : List Instruction)
    (rest : List UInt8) :
    instructionsFrom offset (encodeAll instructions ++ rest) =
      located offset instructions ++
        instructionsFrom (offset + (encodeAll instructions).length) rest := by
  induction instructions generalizing offset with
  | nil => simp [encodeAll, located]
  | cons instruction instructions induction =>
      have skipped : (instruction.operands ++ (encodeAll instructions ++ rest)).drop
          instruction.opcode.operandSize = encodeAll instructions ++ rest :=
        List.drop_left' instruction.sized
      rw [encodeAll_cons, encode, List.append_assoc, List.cons_append, instructionsFrom]
      simp only [Opcode.ofCode?_code]
      rw [skipped, induction, located, List.cons_append, List.length_append, List.length_cons,
        instruction.sized]
      congr 3
      omega

/-- The opcodes of encoded instructions are found where they were written. -/
theorem instructions_eq_located {code : Bytecode} {instructions : List Instruction}
    (written : code.bytes = encodeAll instructions) :
    code.instructions = located 0 instructions := by
  have decoded := instructionsFrom_encodeAll 0 instructions []
  rw [List.append_nil, instructionsFrom, List.append_nil] at decoded
  rw [Bytecode.instructions, written, decoded]

theorem instructions_of_append {before after : Bytecode} {instructions : List Instruction}
    {instruction : Instruction} (complete : before.bytes = encodeAll instructions)
    (written : after.bytes = before.bytes ++ instruction.encode) :
    after.instructions = before.instructions ++ [(before.size, instruction.opcode)] := by
  have bytes : after.bytes = encodeAll instructions ++ encodeAll [instruction] := by
    rw [written, complete, encodeAll_singleton]
  have last := instructionsFrom_encodeAll before.size [instruction] []
  rw [List.append_nil, instructionsFrom, List.append_nil] at last
  rw [Bytecode.instructions, bytes, instructionsFrom_encodeAll, Nat.zero_add, ← complete]
  change _ ++ instructionsFrom before.size _ = _
  rw [last, instructions_eq_located complete]
  rfl

/-- The offset at which the last instruction that is read ends. -/
def decodedSize (code : Bytecode) : Nat :=
  match code.instructions.getLast? with
  | some (offset, opcode) => offset + 1 + opcode.operandSize
  | none => 0

private theorem getLast?_located (offset : Nat) (first : Instruction)
    (instructions : List Instruction) :
    ∃ last opcode, (located offset (first :: instructions)).getLast? = some (last, opcode) ∧
      last + 1 + opcode.operandSize =
        offset + (encodeAll (first :: instructions)).length := by
  induction instructions generalizing offset first with
  | nil =>
      refine ⟨offset, first.opcode, rfl, ?_⟩
      simp [encodeAll, encode, first.sized]
      omega
  | cons second instructions induction =>
      obtain ⟨last, opcode, found, ends⟩ :=
        induction (offset + 1 + first.opcode.operandSize) second
      refine ⟨last, opcode, ?_, ?_⟩
      · rw [located, located, List.getLast?_cons_cons, ← located]
        exact found
      · rw [ends, encodeAll_cons first, List.length_append, length_encode]
        omega

theorem decodedSize_eq_size {code : Bytecode} {instructions : List Instruction}
    (written : code.bytes = encodeAll instructions) : code.decodedSize = code.size := by
  rw [decodedSize, instructions_eq_located written, size, written]
  cases instructions with
  | nil => rfl
  | cons first instructions =>
      obtain ⟨last, opcode, found, ends⟩ := getLast?_located 0 first instructions
      rw [found]
      simpa using ends

end Bytecode
end OperatorDispatch
