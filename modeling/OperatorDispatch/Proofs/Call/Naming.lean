import OperatorDispatch.Proofs.Call.Validity
import OperatorDispatch.Proofs.Machine.PoolHistory
import OperatorDispatch.Proofs.Machine.Reading

/-!
# Naming a constant

An instruction names a constant by its position, for which it has two bytes at most.  A pool can
hold more constants than that, so a constant that it holds may be out of reach, and one that it
lacks may find no position left.  Otherwise one instruction is written, and the position that is
read back from it denotes the constant.  What cannot be named changes neither code nor pool.
-/

namespace OperatorDispatch

namespace ConstantPool

variable {pool : ConstantPool} {value : Constant}

/-- The pool holds the constant at a position of two bytes, or it lacks the constant and has such a
position left. -/
def Nameable (pool : ConstantPool) (value : Constant) : Prop :=
  (∃ position, position ≤ 65535 ∧ pool.get? position = some value) ∨
    value ∉ pool.constants ∧ pool.size < 65536

theorem nameable_iff_of_find?_eq_some {position : Nat}
    (found : pool.find? value = some position) :
    pool.Nameable value ↔ position < addressable := by
  have held : value ∈ pool.constants := Array.mem_of_getElem? (get?_of_find? found)
  constructor
  · rintro (⟨other, small, here⟩ | ⟨absent, -⟩)
    · obtain rfl : position = other :=
        Option.some.inj (found.symm.trans ((pool.find?_eq_some_iff value other).2 here))
      exact Nat.lt_succ_of_le small
    · exact absurd held absent
  · intro small
    exact .inl ⟨position, Nat.le_of_lt_succ small, get?_of_find? found⟩

theorem nameable_iff_of_find?_eq_none (absent : pool.find? value = none) :
    pool.Nameable value ↔ pool.size < addressable := by
  have lacked : value ∉ pool.constants := find?_eq_none_iff.1 absent
  constructor
  · rintro (⟨position, -, here⟩ | ⟨-, room⟩)
    · exact absurd (Array.mem_of_getElem? here) lacked
    · exact room
  · exact fun room => .inr ⟨lacked, room⟩

theorem exists_intern?_of_nameable (nameable : pool.Nameable value) :
    ∃ index : UInt16, index.toNat = (pool.add value).1 ∧
      pool.intern? value = some (index, (pool.add value).2) := by
  cases found : pool.find? value with
  | some position =>
      have small := (nameable_iff_of_find?_eq_some found).1 nameable
      rw [intern?_of_find?_eq_some found, add_of_find?_eq_some found, if_pos small]
      exact ⟨position.toUInt16, toNat_toUInt16 small, rfl⟩
  | none =>
      have room := (nameable_iff_of_find?_eq_none found).1 nameable
      rw [intern?_of_find?_eq_none found, add_of_find?_eq_none found, if_pos room]
      exact ⟨pool.size.toUInt16, toNat_toUInt16 room, rfl⟩

theorem intern?_of_not_nameable (unnameable : ¬pool.Nameable value) :
    pool.intern? value = none := by
  cases found : pool.find? value with
  | some position =>
      rw [intern?_of_find?_eq_some found,
        if_neg (mt (nameable_iff_of_find?_eq_some found).2 unnameable)]
  | none =>
      rw [intern?_of_find?_eq_none found,
        if_neg (mt (nameable_iff_of_find?_eq_none found).2 unnameable)]

end ConstantPool

/-! ## Instructions that hold a position -/

namespace Instruction

/-- For every position an instruction that holds it.  The position alone decides the opcode, and the
further operand bytes come last. -/
structure HoldsPositions (encoded : UInt16 → Instruction) (opcode : Nat → Opcode)
    (further : List UInt8) : Prop where
  opcode_eq : ∀ index, (encoded index).opcode = opcode index.toNat
  ends : ∀ index, ∃ front, (encoded index).operands = front ++ further
  /-- Wherever the instruction stands in code, the position is read back from it. -/
  positionAt?_eq : ∀ index (code : Bytecode) offset,
    code.operandsAt offset (encoded index).opcode = (encoded index).operands →
      code.positionAt? offset (encoded index).opcode = some (some index.toNat)

/-- The instruction that pushes the constant at a position. -/
def push (index : UInt16) : Instruction :=
  if index ≤ 255 then
    ⟨.constant, [index.toUInt8], rfl⟩
  else
    ⟨.constantWide, Bytecode.bigEndian index, rfl⟩

/-- The instruction that calls the runtime for the operator at a position. -/
def call (arguments : UInt8) (index : UInt16) : Instruction :=
  ⟨.callBuiltin, Bytecode.bigEndian index ++ [arguments], rfl⟩

theorem opcode_push (index : UInt16) :
    (push index).opcode = if index.toNat ≤ 255 then .constant else .constantWide := by
  have small : index ≤ 255 ↔ index.toNat ≤ 255 := UInt16.le_iff_toNat_le
  rw [push]
  by_cases narrow : index ≤ 255
  · rw [if_pos narrow, if_pos (small.1 narrow)]
  · rw [if_neg narrow, if_neg (mt small.2 narrow)]

theorem holdsPositions_push :
    HoldsPositions push (fun position => if position ≤ 255 then .constant else .constantWide)
      [] := by
  refine ⟨opcode_push, fun index => ⟨_, (List.append_nil _).symm⟩, ?_⟩
  intro index code offset read
  rw [push] at read ⊢
  split at read
  · next narrow =>
      rw [if_pos narrow, Bytecode.positionAt?, Bytecode.byte?_of_operandsAt read 0 rfl,
        Option.map_some, Bytecode.toNat_toUInt8_of_le narrow]
  · next wide =>
      rw [if_neg wide, Bytecode.positionAt?, Bytecode.word?_of_operandsAt read, Option.map_some,
        Bytecode.ofBigEndian_bigEndian]

theorem holdsPositions_call (arguments : UInt8) :
    HoldsPositions (call arguments) (fun _ => .callBuiltin) [arguments] := by
  refine ⟨fun _ => rfl, fun index => ⟨Bytecode.bigEndian index, rfl⟩, ?_⟩
  intro index code offset read
  rw [call, Bytecode.positionAt?, Bytecode.word?_of_operandsAt read, Option.map_some,
    Bytecode.ofBigEndian_bigEndian]

end Instruction

open Instruction

/-! ## Steps that name a constant -/

/-- One instruction was written, and it names the constant by its position. -/
structure EmissionState.Wrote (before after : EmissionState) (value : Constant) (opcode : Opcode)
    (position : Nat) (further : List UInt8) : Prop where
  /-- The instruction is complete, with the further bytes after those of the position. -/
  written : ∃ (instruction : Instruction) (front : List UInt8), instruction.opcode = opcode ∧
    instruction.operands = front ++ further ∧
      after.code.bytes = before.code.bytes ++ instruction.encode
  /-- After complete instructions it is read as one more. -/
  listed : ∀ instructions, before.code.bytes = encodeAll instructions →
    after.code.instructions = before.code.instructions ++ [(before.code.size, opcode)]
  opcode?_eq : after.code.opcode? before.code.size = some opcode
  positionAt?_eq : after.code.positionAt? before.code.size opcode = some (some position)
  get?_eq : after.pool.get? position = some value
  /-- The pool has grown by the constant if it lacked it, and not at all if it held it. -/
  pooled : after.pool.constants.toList =
    if value ∈ before.pool.constants.toList then before.pool.constants.toList
    else before.pool.constants.toList ++ [value]

namespace Emission

/-- The step writes one instruction that names the constant if the constant can be named, and
changes nothing if it cannot. -/
structure Names (step : Emission Unit) (value : Constant) (opcode : Nat → Opcode)
    (further : List UInt8) : Prop where
  succeeds_iff : ∀ before, (∃ after, step before = .ok () after) ↔ before.pool.Nameable value
  writes : ∀ before after, step before = .ok () after →
    ∃ position, before.Wrote after value (opcode position) position further
  refuses : ∀ before cause after, step before = .error cause after →
    cause = .poolOverflow 65536 ∧ after = before

/-- Writes the instruction that holds the position of a constant. -/
def naming (value : Constant) (encoded : UInt16 → Instruction) : Emission Unit := do
  let index ← position value
  instruction (encoded index).opcode (encoded index).operands

theorem constant_eq_naming (value : Constant) : constant value = naming value push := by
  rw [constant, naming]
  congr 1
  funext index
  rw [push]
  by_cases narrow : index ≤ 255
  · rw [if_pos narrow, if_pos narrow]
  · rw [if_neg narrow, if_neg narrow]

theorem builtin_eq_naming (operator : Operator) (arguments : UInt8) :
    builtin operator arguments = naming (.operator operator.identity) (call arguments) := rfl

variable {before : EmissionState} {value : Constant} {encoded : UInt16 → Instruction}
  {opcode : Nat → Opcode} {further : List UInt8}

/-- The instruction that holds the position at which the constant is added names the constant. -/
theorem wrote_of_placed (holds : HoldsPositions encoded opcode further) {index : UInt16}
    (placed : index.toNat = (before.pool.add value).1) :
    before.Wrote
      { code := before.code.appendInstruction (encoded index).opcode (encoded index).operands
        pool := (before.pool.add value).2 }
      value (opcode index.toNat) index.toNat further := by
  obtain ⟨front, operands⟩ := holds.ends index
  rw [← holds.opcode_eq]
  have written : (before.code.appendInstruction (encoded index).opcode
      (encoded index).operands).bytes = before.code.bytes ++ (encoded index).encode := rfl
  have last := written
  rw [← List.append_nil (encoded index).encode] at last
  have denoted : (before.pool.add value).2.get? index.toNat = some value := by
    rw [placed]
    exact ConstantPool.get?_of_find? (before.pool.find?_add value)
  exact
    { written := ⟨encoded index, front, rfl, operands, written⟩
      listed := fun instructions complete => Bytecode.instructions_of_append complete written
      opcode?_eq := Bytecode.opcode?_of_bytes written
      positionAt?_eq := holds.positionAt?_eq _ _ _ (Bytecode.operandsAt_of_bytes _ _ _ last)
      get?_eq := denoted
      pooled := before.pool.toList_add value }

theorem naming_of_nameable (holds : HoldsPositions encoded opcode further)
    (nameable : before.pool.Nameable value) :
    ∃ after position, naming value encoded before = .ok () after ∧
      before.Wrote after value (opcode position) position further := by
  obtain ⟨index, placed, interned⟩ := ConstantPool.exists_intern?_of_nameable nameable
  refine ⟨_, index.toNat, ?_, wrote_of_placed holds placed⟩
  have pooled : position value before =
      .ok index { before with pool := (before.pool.add value).2 } := by rw [position, interned]
  exact (bind_of_eq_ok pooled).trans rfl

theorem naming_of_not_nameable (unnameable : ¬before.pool.Nameable value) :
    naming value encoded before = .error (.poolOverflow 65536) before :=
  bind_of_eq_error <| by
    rw [position, ConstantPool.intern?_of_not_nameable unnameable, ConstantPool.addressable]

theorem names_naming (holds : HoldsPositions encoded opcode further) (value : Constant) :
    Names (naming value encoded) value opcode further where
  succeeds_iff before := by
    constructor
    · rintro ⟨after, ended⟩
      by_contra unnameable
      rw [naming_of_not_nameable unnameable] at ended
      contradiction
    · intro nameable
      obtain ⟨after, -, ended, -⟩ := naming_of_nameable holds nameable
      exact ⟨after, ended⟩
  writes before after ended := by
    by_cases nameable : before.pool.Nameable value
    · obtain ⟨reached, position, named, wrote⟩ := naming_of_nameable holds nameable
      rw [named] at ended
      cases ended
      exact ⟨position, wrote⟩
    · rw [naming_of_not_nameable nameable] at ended
      contradiction
  refuses before cause after ended := by
    by_cases nameable : before.pool.Nameable value
    · obtain ⟨reached, -, named, -⟩ := naming_of_nameable holds nameable
      rw [named] at ended
      contradiction
    · rw [naming_of_not_nameable nameable] at ended
      cases ended
      exact ⟨rfl, rfl⟩

/-- Whatever was written before and however large the pool is, a push of a constant succeeds exactly
if the constant can be named.  It then writes one instruction, with one byte for the position if
that suffices; otherwise it changes nothing.  A call of the runtime does the same with the identity
of the operator, always with two bytes for the position and the number of arguments after them. -/
theorem names_constant_and_builtin :
    (∀ value, Names (constant value) value
      (fun position => if position ≤ 255 then .constant else .constantWide) []) ∧
    ∀ (operator : Operator) (arguments : UInt8),
      Names (builtin operator arguments) (.operator operator.identity) (fun _ => .callBuiltin)
        [arguments] := by
  constructor
  · intro value
    rw [constant_eq_naming]
    exact names_naming holdsPositions_push value
  · intro operator arguments
    rw [builtin_eq_naming]
    exact names_naming (holdsPositions_call arguments) (.operator operator.identity)

end Emission
end OperatorDispatch
