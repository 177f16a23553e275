import OperatorDispatch.Call.Emission
import OperatorDispatch.Proofs.Machine.Action

/-!
# Emission without a pool

What a step of an emission writes does not depend on the pool once constants are named by their
values.  Each step is compared with the actions that it stands for: it writes instructions with
these actions, or it fails with the cause that is given for them, or the pool has no room left.
-/

namespace OperatorDispatch

/-- The later state continues the code and the pool of the earlier one. -/
def EmissionState.Extends (earlier later : EmissionState) : Prop :=
  earlier.code.bytes <+: later.code.bytes ∧ earlier.pool.Extends later.pool

theorem EmissionState.Extends.refl (state : EmissionState) : state.Extends state :=
  ⟨List.prefix_refl _, .refl _⟩

theorem EmissionState.Extends.trans {first second third : EmissionState}
    (before : first.Extends second) (after : second.Extends third) : first.Extends third :=
  ⟨before.1.trans after.1, before.2.trans after.2⟩

namespace Emission

open Instruction

section Bind

variable {α β : Type} {step : Emission α} {next : α → Emission β} {before after : EmissionState}

theorem bind_of_eq_ok {value : α} (ran : step before = .ok value after) :
    (step >>= next) before = next value after := by
  change EStateM.bind step next before = _
  rw [EStateM.bind, ran]

theorem bind_of_eq_error {cause : CallError} (failed : step before = .error cause after) :
    (step >>= next) before = .error cause after := by
  change EStateM.bind step next before = _
  rw [EStateM.bind, failed]

end Bind

/-- A step from the state `before` has an end that fits the actions it stands for, if it adds fewer
than `room` constants before it fails and at most `room` in all. -/
inductive Outcome (meaning : Except CallError (List Action)) (room : Nat)
    (before : EmissionState) : EStateM.Result CallError EmissionState Unit → Prop where
  /-- Instructions with the actions were written. -/
  | wrote (after : EmissionState) (instructions : List Instruction) (actions : List Action)
      (means : meaning = .ok actions)
      (written : after.code.bytes = before.code.bytes ++ encodeAll instructions)
      (grown : before.pool.Extends after.pool)
      (bounded : after.pool.size ≤ before.pool.size + room)
      (acts : instructions.mapM (action? after.pool) = some actions) :
      Outcome meaning room before (.ok () after)
  /-- There are no actions, for the same cause. -/
  | refused (cause : CallError) (after : EmissionState) (means : meaning = .error cause)
      (kept : before.Extends after) : Outcome meaning room before (.error cause after)
  /-- A constant found no room. -/
  | overflowed (after : EmissionState) (kept : before.Extends after)
      (full : ConstantPool.addressable ≤ after.pool.size)
      (bounded : after.pool.size < before.pool.size + room) :
      Outcome meaning room before (.error (.poolOverflow ConstantPool.addressable) after)

/-- From every state the step has an end that fits the actions. -/
def Means (step : Emission Unit) (meaning : Except CallError (List Action)) (room : Nat) : Prop :=
  ∀ before, Outcome meaning room before (step before)

theorem Outcome.extends {meaning : Except CallError (List Action)} {room : Nat}
    {before after : EmissionState} (ended : Outcome meaning room before (.ok () after)) :
    before.Extends after := by
  cases ended with
  | wrote _ _ _ _ written grown => exact ⟨written ▸ List.prefix_append _ _, grown⟩

theorem means_pure : Means (pure ()) (.ok []) 0 := by
  intro before
  exact .wrote before [] [] rfl (List.append_nil _).symm (.refl _) (Nat.le_refl _) rfl

theorem Means.bind {first second : Emission Unit}
    {firstMeaning secondMeaning : Except CallError (List Action)} {firstRoom secondRoom : Nat}
    (firstMeans : Means first firstMeaning firstRoom)
    (secondMeans : Means second secondMeaning secondRoom) :
    Means (first >>= fun _ => second)
      (do return (← firstMeaning) ++ (← secondMeaning)) (firstRoom + secondRoom) := by
  intro before
  have firstEnd := firstMeans before
  cases firstResult : first before with
  | error cause after =>
      rw [bind_of_eq_error firstResult]
      rw [firstResult] at firstEnd
      cases firstEnd with
      | refused _ _ means kept => exact .refused cause after (by rw [means]; rfl) kept
      | overflowed _ kept full bounded => exact .overflowed after kept full (by omega)
  | ok _ middle =>
      rw [bind_of_eq_ok firstResult]
      rw [firstResult] at firstEnd
      have reached := firstEnd.extends
      have secondEnd := secondMeans middle
      cases firstEnd with
      | wrote _ firstWritten firstActions firstIs written grown bounded acts =>
          cases secondResult : second middle with
          | error cause after =>
              rw [secondResult] at secondEnd
              cases secondEnd with
              | refused _ _ means kept =>
                  exact .refused cause after (by rw [firstIs, means]; rfl) (reached.trans kept)
              | overflowed _ kept full bounded' =>
                  exact .overflowed after (reached.trans kept) full (by omega)
          | ok _ after =>
              rw [secondResult] at secondEnd
              cases secondEnd with
              | wrote _ secondWritten secondActions secondIs written' grown' bounded' acts' =>
                  refine .wrote after (firstWritten ++ secondWritten)
                    (firstActions ++ secondActions) ?_ ?_ (grown.trans grown') (by omega) ?_
                  · rw [firstIs, secondIs]
                    rfl
                  · rw [written', written, encodeAll_append, List.append_assoc]
                  · rw [List.mapM_append, mapM_action?_of_extends grown' acts, acts']
                    rfl

/-! ## Single steps -/

theorem outcome_instruction {before : EmissionState} {pool : ConstantPool} {room : Nat}
    {opcode : Opcode} {operands : List UInt8} {action : Action}
    (sized : operands.length = opcode.operandSize) (grown : before.pool.Extends pool)
    (bounded : pool.size ≤ before.pool.size + room)
    (acts : Action.ofInstruction? pool opcode operands = some action) :
    Outcome (.ok [action]) room before (instruction opcode operands { before with pool }) := by
  refine .wrote { code := before.code.appendInstruction opcode operands, pool }
    [⟨opcode, operands, sized⟩] [action] rfl ?_ grown bounded ?_
  · rw [encodeAll_singleton]
    rfl
  · simp [action?, acts]

theorem means_instruction {opcode : Opcode} {operands : List UInt8} {action : Action}
    (sized : operands.length = opcode.operandSize)
    (acts : ∀ pool, Action.ofInstruction? pool opcode operands = some action) :
    Means (instruction opcode operands) (.ok [action]) 0 :=
  fun before => outcome_instruction sized (.refl before.pool) (Nat.le_refl _) (acts before.pool)

/-- Whatever is written with the position of a constant, it may rely on what the position
denotes. -/
theorem means_position_bind {value : Constant} {next : UInt16 → Emission Unit} {action : Action}
    (writes : ∀ (position : UInt16) (before : EmissionState) (pool : ConstantPool),
      before.pool.Extends pool → pool.size ≤ before.pool.size + 1 →
        pool.get? position.toNat = some value →
          Outcome (.ok [action]) 1 before (next position { before with pool })) :
    Means (position value >>= next) (.ok [action]) 1 := by
  intro before
  change Outcome _ _ _ (EStateM.bind (position value) next before)
  rw [EStateM.bind, position]
  cases interned : before.pool.intern? value with
  | none =>
      exact .overflowed before (.refl before) (ConstantPool.addressable_le_of_intern? interned)
        (Nat.lt_succ_self _)
  | some result =>
      obtain ⟨index, pool⟩ := result
      obtain ⟨grown, held, bounded⟩ := ConstantPool.intern?_eq_some interned
      exact writes index before pool grown bounded held

theorem means_constant (value : Constant) : Means (constant value) (.ok [.push value]) 1 := by
  apply means_position_bind
  intro index before pool grown bounded held
  split
  · next narrow =>
      apply outcome_instruction rfl grown bounded
      simp [Action.ofInstruction?, Bytecode.toNat_toUInt8_of_le narrow, held]
  · apply outcome_instruction rfl grown bounded
    simp [Action.ofInstruction?, Bytecode.bigEndian, Bytecode.ofBigEndian_bigEndian, held]

theorem means_builtin (operator : Operator) (arguments : UInt8) :
    Means (builtin operator arguments) (.ok [.call operator.identity arguments.toNat]) 1 := by
  apply means_position_bind
  intro index before pool grown bounded held
  apply outcome_instruction rfl grown bounded
  simp [Action.ofInstruction?, Bytecode.bigEndian, Bytecode.ofBigEndian_bigEndian, held]

/-! ## Operands -/

end Emission

/-- The actions that push an operand. -/
def Operand.pushed (operand : Operand) : Except CallError (List Action) :=
  match operand.source with
  | .slot number => if number ≤ 255 then .ok [.load number] else .error (.slotOverflow number)
  | .literal (.int value) => .ok [.push (.int value)]
  | .literal (.double bits) => .ok [.push (.double bits)]
  | .literal (.string text) => .ok [.push (.string text)]
  | .literal .null => .ok [.direct .pushNull []]

/-- The actions that convert a value to a root. -/
def TypeRoot.converted (source target : TypeRoot) : Except CallError (List Action) :=
  if source = target then
    .ok []
  else
    match Opcode.widening? source target with
    | some opcode => .ok [.direct opcode []]
    | none => .error (.unsupportedConversion source target)

/-- The actions that convert a value to what the signature says, if that is a numeric primitive. -/
def TypeRoot.fitted (source : TypeRoot) : Option TypeRoot → Except CallError (List Action)
  | some target => if target.isNumericPrimitive then source.converted target else .ok []
  | none => .ok []

/-- The actions that push operands and convert each of them. -/
def Operand.loaded : List Operand → Signature → Except CallError (List Action)
  | [], _ => .ok []
  | operand :: operands, signature => do
      let pushed ← operand.pushed
      let fitted ← operand.root.fitted signature.head?
      let rest ← loaded operands signature.tail
      return pushed ++ (fitted ++ rest)

namespace Emission

theorem means_operand (value : Operand) : Means (operand value) value.pushed 1 := by
  intro before
  rw [operand, Operand.pushed]
  cases value.source with
  | slot number =>
      simp only [slot]
      by_cases named : number ≤ 255
      · rw [if_pos named, if_pos named]
        apply outcome_instruction rfl (.refl _) (Nat.le_succ _)
        have small : number.toUInt8.toNat = number :=
          UInt8.toNat_ofNat_of_lt' (Nat.lt_succ_of_le named)
        simp [Action.ofInstruction?, small]
      · rw [if_neg named, if_neg named]
        exact .refused _ before rfl (.refl before)
  | literal value =>
      cases value with
      | int value => exact means_constant (.int value) before
      | double bits => exact means_constant (.double bits) before
      | string text => exact means_constant (.string text) before
      | null => exact outcome_instruction rfl (.refl _) (Nat.le_succ _) rfl

theorem means_widen (source target : TypeRoot) :
    Means (widen source target) (source.converted target) 0 := by
  rw [widen, TypeRoot.converted]
  by_cases same : source = target
  · rw [if_pos same, if_pos same]
    exact means_pure
  · rw [if_neg same, if_neg same]
    cases converts : Opcode.widening? source target with
    | none => exact fun before => .refused _ before rfl (.refl before)
    | some opcode =>
        obtain ⟨direct, bare⟩ := Opcode.isDirect_of_widening? converts
        have sized : ([] : List UInt8).length = opcode.operandSize := bare.symm
        exact means_instruction sized fun pool => Action.ofInstruction?_direct pool direct sized

/-- Converts the value on top of the stack to what the signature says, if that is a numeric
primitive. -/
def fit (source : TypeRoot) : Option TypeRoot → Emission Unit
  | some target => if target.isNumericPrimitive then widen source target else pure ()
  | none => pure ()

theorem means_fit (source : TypeRoot) (target? : Option TypeRoot) :
    Means (fit source target?) (source.fitted target?) 0 := by
  cases target? with
  | none => exact means_pure
  | some target =>
      rw [fit, TypeRoot.fitted]
      by_cases numeric : target.isNumericPrimitive = true
      · rw [if_pos numeric, if_pos numeric]
        exact means_widen source target
      · rw [if_neg numeric, if_neg numeric]
        exact means_pure

theorem operands_cons (first : Operand) (rest : List Operand) (signature : Signature) :
    operands (first :: rest) signature =
      operand first >>= fun _ =>
        fit first.root signature.head? >>= fun _ => operands rest signature.tail := by
  rw [operands]
  congr 1
  funext _
  cases signature.head? with
  | none => rfl
  | some target =>
      rw [fit]
      by_cases numeric : target.isNumericPrimitive = true
      · simp only [if_pos numeric]
      · simp only [if_neg numeric]
        rfl

theorem means_operands (values : List Operand) (signature : Signature) :
    Means (operands values signature) (Operand.loaded values signature) values.length := by
  induction values generalizing signature with
  | nil => exact means_pure
  | cons first rest induction =>
      have steps := (means_operand first).bind
        ((means_fit first.root signature.head?).bind (induction signature.tail))
      rw [operands_cons, Operand.loaded, List.length_cons]
      simp only [bind_assoc, pure_bind, Nat.zero_add, Nat.add_comm 1] at steps
      exact steps

end Emission
end OperatorDispatch
