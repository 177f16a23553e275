import OperatorDispatch.Proofs.Machine.Action
import OperatorDispatch.Proofs.Types.Widening

/-!
# Code without conversions

A conversion widens the number on top of the stack and does nothing else.  Taking the conversions
out of code leaves every other instruction as it is, with its operand bytes and in its order.
-/

namespace OperatorDispatch

/-- The chain of the numeric primitives and the table of the conversions have the same pairs. -/
theorem TypeRoot.widensTo_iff_exists_widening? (source target : TypeRoot) :
    source.widensTo target = true ↔ ∃ opcode, Opcode.widening? source target = some opcode := by
  constructor
  · intro widens
    obtain ⟨narrow, wide, sourcePlaced, targetPlaced, ascends⟩ :=
      (widensTo_iff source target).1 widens
    cases source <;> cases sourcePlaced <;> cases target <;> cases targetPlaced <;>
      first
      | exact ⟨_, rfl⟩
      | contradiction
  · rintro ⟨opcode, converts⟩
    rw [Opcode.widening?.eq_def] at converts
    split at converts <;> first | rfl | contradiction

namespace Opcode

/-- Whether the opcode converts a number to a wider one. -/
def isConversion : Opcode → Bool
  | i8ToI16 | i8ToI32 | i8ToI64 | i8ToF32 | i8ToF64 | i16ToI32 | i16ToI64 | i16ToF32 | i16ToF64
  | i32ToI64 | i32ToF32 | i32ToF64 | i64ToF32 | i64ToF64 | f32ToF64 => true
  | _ => false

theorem isConversion_of_widening? {source target : TypeRoot} {opcode : Opcode}
    (converts : widening? source target = some opcode) : opcode.isConversion = true := by
  rw [widening?.eq_def] at converts
  split at converts <;> cases converts <;> rfl

theorem isNumericPrimitive_of_widening? {source target : TypeRoot} {opcode : Opcode}
    (converts : widening? source target = some opcode) :
    source.isNumericPrimitive = true ∧ target.isNumericPrimitive = true :=
  TypeRoot.isNumericPrimitive_of_widensTo <|
    (TypeRoot.widensTo_iff_exists_widening? source target).2 ⟨opcode, converts⟩

end Opcode

/-- The instructions that are no conversions. -/
def Instruction.unconverted (instructions : List Instruction) : List Instruction :=
  instructions.filter fun instruction => !instruction.opcode.isConversion

namespace Bytecode

open Instruction

/-- The code with all conversions taken out. -/
def withoutConversions (code : Bytecode) : Bytecode where
  bytes := (code.instructions.filter fun (_, opcode) => !opcode.isConversion).flatMap
    fun (offset, opcode) => opcode.code :: code.operandsAt offset opcode

private theorem flatMap_located {code : Bytecode} (front : List UInt8)
    {instructions : List Instruction} (written : code.bytes = front ++ encodeAll instructions) :
    ((located front.length instructions).filter fun (_, opcode) =>
        !opcode.isConversion).flatMap
          (fun (offset, opcode) => opcode.code :: code.operandsAt offset opcode) =
      encodeAll (unconverted instructions) := by
  induction instructions generalizing front with
  | nil => rfl
  | cons instruction instructions induction =>
      have here := operandsAt_of_bytes front (encodeAll instructions) instruction written
      have later := induction (front ++ instruction.encode) <| by
        rw [written, encodeAll_cons, List.append_assoc]
      rw [List.length_append, length_encode, ← Nat.add_assoc] at later
      rw [located, unconverted]
      by_cases conversion : instruction.opcode.isConversion = true
      · rw [List.filter_cons_of_neg (by simpa using conversion),
          List.filter_cons_of_neg (by simpa using conversion)]
        exact later
      · rw [List.filter_cons_of_pos (by simpa using conversion),
          List.filter_cons_of_pos (by simpa using conversion), List.flatMap_cons, later,
          encodeAll_cons]
        simp only [here]
        rfl

/-- Encoded instructions without the conversions are the others, encoded. -/
theorem withoutConversions_eq {code : Bytecode} {instructions : List Instruction}
    (written : code.bytes = encodeAll instructions) :
    code.withoutConversions = ⟨encodeAll (unconverted instructions)⟩ := by
  rw [withoutConversions, instructions_eq_located written]
  exact congrArg Bytecode.mk (flatMap_located [] written)

end Bytecode
end OperatorDispatch
