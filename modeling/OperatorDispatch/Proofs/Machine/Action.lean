import OperatorDispatch.Proofs.Machine.Instruction
import OperatorDispatch.Proofs.Machine.PoolGrowth

/-!
# Actions

An action is what an instruction does once the constant that it names is looked up.  The two widths
of an index are one action, and the positions of constants in the pool do not matter.  The actions
of bytecode are those of the instructions that are read from it, and they stay the same while the
pool grows.
-/

namespace OperatorDispatch

/-- What an instruction does once the constant that it names is looked up. -/
inductive Action where
  /-- Pushes the value of a slot. -/
  | load (slot : Nat)
  /-- Pushes a constant. -/
  | push (constant : Constant)
  /-- Calls the function of the runtime that carries out the operator with this identity. -/
  | call (identity : UInt64) (arguments : Nat)
  /-- Carries out an opcode that names neither a slot nor a constant, with its operand bytes. -/
  | direct (opcode : Opcode) (operands : List UInt8)
  deriving DecidableEq, Repr

/-- Whether the opcode names neither a slot nor a constant. -/
def Opcode.isDirect : Opcode → Bool
  | .loadOperand | .constant | .constantWide | .callBuiltin => false
  | _ => true

theorem Opcode.isDirect_of_widening? {source target : TypeRoot} {opcode : Opcode}
    (converts : Opcode.widening? source target = some opcode) :
    opcode.isDirect = true ∧ opcode.operandSize = 0 := by
  rw [Opcode.widening?.eq_def] at converts
  split at converts <;> cases converts <;> exact ⟨rfl, rfl⟩

namespace Action

/-- The action of an opcode with its operand bytes, if these are complete and the constant that they
name exists. -/
def ofInstruction? (pool : ConstantPool) (opcode : Opcode) (operands : List UInt8) :
    Option Action :=
  match opcode, operands with
  | .loadOperand, [slot] => some (.load slot.toNat)
  | .constant, [index] => (pool.get? index.toNat).map .push
  | .constantWide, [high, low] =>
      (pool.get? (Bytecode.ofBigEndian high low).toNat).map .push
  | .callBuiltin, [high, low, arguments] =>
      match pool.get? (Bytecode.ofBigEndian high low).toNat with
      | some (.operator identity) => some (.call identity arguments.toNat)
      | _ => none
  | opcode, operands =>
      if operands.length = opcode.operandSize then some (.direct opcode operands) else none

theorem ofInstruction?_direct (pool : ConstantPool) {opcode : Opcode} {operands : List UInt8}
    (direct : opcode.isDirect = true) (sized : operands.length = opcode.operandSize) :
    ofInstruction? pool opcode operands = some (.direct opcode operands) := by
  cases opcode <;> first | contradiction | exact if_pos sized

theorem ofInstruction?_of_extends {earlier later : ConstantPool} (grown : earlier.Extends later)
    {opcode : Opcode} {operands : List UInt8} {action : Action}
    (known : ofInstruction? earlier opcode operands = some action) :
    ofInstruction? later opcode operands = some action := by
  rw [ofInstruction?.eq_def] at known ⊢
  split at known
  · exact known
  · obtain ⟨constant, held, rfl⟩ := Option.map_eq_some_iff.1 known
    simp [grown.get? held]
  · obtain ⟨constant, held, rfl⟩ := Option.map_eq_some_iff.1 known
    simp [grown.get? held]
  · split at known
    · next held => simpa [grown.get? held] using known
    · contradiction
  · exact known

end Action

theorem mapM_of_imp {α β : Type} {earlier later : α → Option β}
    (kept : ∀ element answer, earlier element = some answer → later element = some answer)
    {elements : List α} {answers : List β} (known : elements.mapM earlier = some answers) :
    elements.mapM later = some answers := by
  induction elements generalizing answers with
  | nil => exact known
  | cons element elements induction =>
      simp only [List.mapM_cons, Option.bind_eq_bind, Option.pure_def, Option.bind_eq_some_iff,
        Option.some.injEq] at known ⊢
      obtain ⟨answer, first, rest, others, joined⟩ := known
      exact ⟨answer, kept element answer first, rest, induction others, joined⟩

namespace Instruction

/-- The action of the instruction. -/
def action? (pool : ConstantPool) (instruction : Instruction) : Option Action :=
  Action.ofInstruction? pool instruction.opcode instruction.operands

theorem mapM_action?_of_extends {earlier later : ConstantPool} (grown : earlier.Extends later)
    {instructions : List Instruction} {actions : List Action}
    (known : instructions.mapM (action? earlier) = some actions) :
    instructions.mapM (action? later) = some actions :=
  mapM_of_imp (fun _ _ => Action.ofInstruction?_of_extends grown) known

end Instruction

namespace Bytecode

open Instruction

theorem ofBigEndian_bigEndian (word : UInt16) :
    ofBigEndian (word >>> 8).toUInt8 word.toUInt8 = word := by
  have bound := word.toNat_lt
  have low : word.toNat % 256 < 2 ^ 8 := Nat.mod_lt _ (by decide)
  have high : word.toNat / 256 < 256 := by omega
  have whole : word.toNat / 256 * 256 < 65536 := by omega
  have joined := Nat.two_pow_add_eq_or_of_lt low (word.toNat / 256)
  rw [ofBigEndian, ← UInt16.toNat_inj]
  simp only [UInt16.toNat_or, UInt16.toNat_shiftLeft, UInt8.toNat_toUInt16, UInt16.toNat_toUInt8,
    UInt16.toNat_shiftRight, Nat.shiftRight_eq_div_pow, Nat.shiftLeft_eq, UInt16.reduceToNat,
    Nat.reduceMod, Nat.reducePow, Nat.mod_eq_of_lt high, Nat.mod_eq_of_lt whole]
  rw [Nat.mul_comm, ← joined]
  omega

theorem toNat_toUInt8_of_le {word : UInt16} (narrow : word ≤ 255) :
    word.toUInt8.toNat = word.toNat := by
  have bound : word.toNat ≤ 255 := UInt16.le_iff_toNat_le.1 narrow
  rw [UInt16.toNat_toUInt8]
  omega

/-- The operand bytes of an opcode that stands at an offset, as far as they are there. -/
def operandsAt (code : Bytecode) (offset : Nat) (opcode : Opcode) : List UInt8 :=
  (code.bytes.drop (offset + 1)).take opcode.operandSize

/-- The actions of the instructions that are read from the bytecode, in order. -/
def actions? (pool : ConstantPool) (code : Bytecode) : Option (List Action) :=
  code.instructions.mapM fun (offset, opcode) =>
    Action.ofInstruction? pool opcode (code.operandsAt offset opcode)

theorem actions?_of_extends {earlier later : ConstantPool} (grown : earlier.Extends later)
    {code : Bytecode} {actions : List Action} (known : code.actions? earlier = some actions) :
    code.actions? later = some actions :=
  mapM_of_imp (fun _ _ => Action.ofInstruction?_of_extends grown) known

theorem operandsAt_of_bytes {code : Bytecode} (front rest : List UInt8)
    (instruction : Instruction) (written : code.bytes = front ++ (instruction.encode ++ rest)) :
    code.operandsAt front.length instruction.opcode = instruction.operands := by
  have after : code.bytes.drop (front.length + 1) = instruction.operands ++ rest := by
    rw [written, encode, List.cons_append, List.drop_length_add_append, List.drop_one,
      List.tail_cons]
  rw [operandsAt, after, List.take_left' instruction.sized]

private theorem mapM_located {pool : ConstantPool} {code : Bytecode} (front : List UInt8)
    {instructions : List Instruction} (written : code.bytes = front ++ encodeAll instructions) :
    (located front.length instructions).mapM (fun (offset, opcode) =>
        Action.ofInstruction? pool opcode (code.operandsAt offset opcode)) =
      instructions.mapM (action? pool) := by
  induction instructions generalizing front with
  | nil => rfl
  | cons instruction instructions induction =>
      have here := operandsAt_of_bytes front (encodeAll instructions) instruction written
      have later := induction (front ++ instruction.encode) <| by
        rw [written, encodeAll_cons, List.append_assoc]
      rw [List.length_append, length_encode, ← Nat.add_assoc] at later
      rw [located, List.mapM_cons, List.mapM_cons, later]
      simp only [here, action?]

/-- The actions of encoded instructions are the actions of these instructions. -/
theorem actions?_eq_mapM (pool : ConstantPool) {code : Bytecode} {instructions : List Instruction}
    (written : code.bytes = encodeAll instructions) :
    code.actions? pool = instructions.mapM (action? pool) := by
  rw [actions?, instructions_eq_located written]
  exact mapM_located [] written

end Bytecode
end OperatorDispatch
