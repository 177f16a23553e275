import OperatorDispatch.Proofs.Call.WellFormed
import OperatorDispatch.Proofs.Machine.PoolContents

/-!
# What a call demands

Once the operands fit the signature, emitting a call can fail at two places only: at a slot that has
no name of one byte, and at a constant for which the pool has no room.  These demands are listed in
the order of the emission.  They are all met exactly if the slots can be named and the constants
that are missing have room together; otherwise the emission ends at the first demand with which they
no longer fit.
-/

namespace OperatorDispatch

/-- What emitting an instruction asks for. -/
inductive Demand where
  /-- A slot with a name of one byte. -/
  | slot (number : Nat)
  /-- A constant with a position in the pool. -/
  | constant (value : Constant)
  deriving DecidableEq, Repr

namespace Demand

/-- The constant that is asked for. -/
def constant? : Demand → Option Constant
  | slot _ => none
  | constant value => some value

/-- Why an emission ends at a demand that is not met. -/
def refusal : Demand → CallError
  | slot number => .slotOverflow number
  | constant _ => .poolOverflow ConstantPool.addressable

/-- All slots can be named, and the pool has room for all constants that it lacks. -/
@[mk_iff]
structure Fit (pool : ConstantPool) (demands : List Demand) : Prop where
  slots : ∀ number, slot number ∈ demands → number ≤ 255
  room : (pool.missing (demands.filterMap constant?)).card ≤ ConstantPool.addressable - pool.size

/-- The pool once a demand is met. -/
def meet (pool : ConstantPool) (demand : Demand) : Except CallError ConstantPool :=
  match demand with
  | slot number => if number ≤ 255 then .ok pool else .error demand.refusal
  | constant value =>
      match pool.intern? value with
      | some (_, pool) => .ok pool
      | none => .error demand.refusal

/-- The pool once demands are met one after the other. -/
def meetAll (pool : ConstantPool) (demands : List Demand) : Except CallError ConstantPool :=
  demands.foldlM meet pool

variable {pool after : ConstantPool} {demand : Demand} {demands : List Demand} {cause : CallError}

theorem meetAll_cons (pool : ConstantPool) (demand : Demand) (demands : List Demand) :
    meetAll pool (demand :: demands) = meet pool demand >>= fun pool => meetAll pool demands :=
  List.foldlM_cons

theorem meetAll_append (pool : ConstantPool) (first second : List Demand) :
    meetAll pool (first ++ second) = meetAll pool first >>= fun pool => meetAll pool second :=
  List.foldlM_append

/-! ## One demand -/

theorem meet_slot (pool : ConstantPool) (number : Nat) :
    meet pool (slot number) =
      if number ≤ 255 then .ok pool else .error (.slotOverflow number) := rfl

theorem meet_held (bounded : pool.size ≤ ConstantPool.addressable) {value : Constant}
    {position : Nat} (found : pool.find? value = some position) :
    meet pool (constant value) = .ok pool := by
  have named : position < ConstantPool.addressable :=
    Nat.lt_of_lt_of_le (ConstantPool.lt_size_of_find? found) bounded
  rw [meet, ConstantPool.intern?_of_find?_eq_some found, if_pos named]

theorem meet_absent {value : Constant} (absent : pool.find? value = none) :
    meet pool (constant value) =
      if pool.size < ConstantPool.addressable then .ok (pool.push value absent)
      else .error (.poolOverflow ConstantPool.addressable) := by
  rw [meet, ConstantPool.intern?_of_find?_eq_none absent]
  by_cases room : pool.size < ConstantPool.addressable
  · rw [if_pos room, if_pos room]
  · rw [if_neg room, if_neg room, refusal]

theorem eq_refusal_of_meet (refused : meet pool demand = .error cause) :
    cause = demand.refusal := by
  rw [meet.eq_def] at refused
  split at refused
  · split at refused
    · contradiction
    · exact (Except.error.inj refused).symm
  · split at refused
    · contradiction
    · exact (Except.error.inj refused).symm

theorem size_le_of_meet (bounded : pool.size ≤ ConstantPool.addressable)
    (met : meet pool demand = .ok after) : after.size ≤ ConstantPool.addressable := by
  cases demand with
  | slot number =>
      rw [meet_slot] at met
      split at met
      · exact Except.ok.inj met ▸ bounded
      · contradiction
  | constant value =>
      cases found : pool.find? value with
      | some position =>
          rw [meet_held bounded found] at met
          exact Except.ok.inj met ▸ bounded
      | none =>
          rw [meet_absent found] at met
          split at met
          · next room =>
              rw [← Except.ok.inj met, ConstantPool.size_push]
              exact room
          · contradiction

theorem fit_cons_iff (bounded : pool.size ≤ ConstantPool.addressable) :
    Fit pool (demand :: demands) ↔ ∃ after, meet pool demand = .ok after ∧ Fit after demands := by
  cases demand with
  | slot number =>
      have constants : (slot number :: demands).filterMap constant? =
          demands.filterMap constant? := rfl
      rw [meet_slot]
      by_cases named : number ≤ 255
      · simp only [if_pos named, Except.ok.injEq, exists_eq_left']
        constructor
        · rintro ⟨slots, room⟩
          exact ⟨fun other member => slots other (.tail _ member), constants ▸ room⟩
        · rintro ⟨slots, room⟩
          refine ⟨?_, constants ▸ room⟩
          rintro other (_ | ⟨_, member⟩)
          · exact named
          · exact slots other member
      · simp only [if_neg named, reduceCtorEq, false_and, exists_false, iff_false]
        rintro ⟨slots, -⟩
        exact named (slots number (.head _))
  | constant value =>
      have constants : (constant value :: demands).filterMap constant? =
          value :: demands.filterMap constant? := rfl
      have slots : (∀ number, slot number ∈ constant value :: demands → number ≤ 255) ↔
          ∀ number, slot number ∈ demands → number ≤ 255 := by
        simp only [List.mem_cons, reduceCtorEq, false_or]
      cases found : pool.find? value with
      | some position =>
          rw [meet_held bounded found]
          simp only [Except.ok.injEq, exists_eq_left', fit_iff, slots, constants,
            ConstantPool.missing_cons_of_find? found]
      | none =>
          rw [meet_absent found]
          by_cases room : pool.size < ConstantPool.addressable
          · simp only [if_pos room, Except.ok.injEq, exists_eq_left', fit_iff, slots, constants,
              ConstantPool.card_missing_cons found, ConstantPool.size_push]
            refine and_congr_right fun _ => ?_
            omega
          · simp only [if_neg room, reduceCtorEq, false_and, exists_false, iff_false, fit_iff,
              constants, ConstantPool.card_missing_cons found]
            rintro ⟨-, fits⟩
            omega

/-! ## All demands -/

theorem fit_nil (pool : ConstantPool) : Fit pool [] := by
  rw [fit_iff]
  simp [ConstantPool.missing_nil]

theorem size_le_of_meetAll (bounded : pool.size ≤ ConstantPool.addressable)
    (met : meetAll pool demands = .ok after) : after.size ≤ ConstantPool.addressable := by
  induction demands generalizing pool with
  | nil =>
      cases met
      exact bounded
  | cons demand demands induction =>
      rw [meetAll_cons, bind_eq_ok] at met
      obtain ⟨middle, first, rest⟩ := met
      exact induction (size_le_of_meet bounded first) rest

theorem exists_meetAll_iff (bounded : pool.size ≤ ConstantPool.addressable) :
    (∃ after, meetAll pool demands = .ok after) ↔ Fit pool demands := by
  induction demands generalizing pool with
  | nil => exact ⟨fun _ => fit_nil pool, fun _ => ⟨pool, rfl⟩⟩
  | cons demand demands induction =>
      simp only [meetAll_cons, bind_eq_ok, fit_cons_iff bounded]
      constructor
      · rintro ⟨after, middle, first, rest⟩
        exact ⟨middle, first, (induction (size_le_of_meet bounded first)).1 ⟨after, rest⟩⟩
      · rintro ⟨middle, first, fits⟩
        obtain ⟨after, rest⟩ := (induction (size_le_of_meet bounded first)).2 fits
        exact ⟨after, middle, first, rest⟩

/-- The first demand with which the list no longer fits is the one that is refused. -/
theorem exists_first_unmet (bounded : pool.size ≤ ConstantPool.addressable)
    (refused : meetAll pool demands = .error cause) :
    ∃ earlier demand later, demands = earlier ++ demand :: later ∧ Fit pool earlier ∧
      ¬Fit pool (earlier ++ [demand]) ∧ cause = demand.refusal := by
  -- The bound goes along with the pool: in a pool beyond it a position might not fit
  -- an instruction although the constant is already there.
  induction demands generalizing pool with
  | nil => contradiction
  | cons demand demands induction =>
      rw [meetAll_cons] at refused
      cases first : meet pool demand with
      | error reason =>
          rw [first] at refused
          cases refused
          refine ⟨[], demand, demands, rfl, fit_nil pool, ?_, eq_refusal_of_meet first⟩
          rw [List.nil_append, fit_cons_iff bounded, first]
          rintro ⟨after, met, -⟩
          contradiction
      | ok middle =>
          rw [first] at refused
          have within := size_le_of_meet bounded first
          obtain ⟨earlier, unmet, later, rfl, fits, exceeds, cause_eq⟩ :=
            induction within refused
          refine ⟨demand :: earlier, unmet, later, rfl, ?_, ?_, cause_eq⟩
          · exact (fit_cons_iff bounded).2 ⟨middle, first, fits⟩
          · rw [List.cons_append, fit_cons_iff bounded, first]
            rintro ⟨after, met, fitsAfter⟩
            exact exceeds (Except.ok.inj met ▸ fitsAfter)

end Demand

/-! ## Steps of an emission -/

theorem FinalAction.isCall_iff {operator : Operator} {signature : Signature} {arguments : Nat}
    {result : LogicalType} {strategy : Strategy} {action : Action}
    (final : FinalAction operator signature arguments result strategy action) :
    action = .call operator.identity arguments ↔ strategy.callsRuntime = true := by
  cases final <;> simp [Strategy.callsRuntime]

/-- What an operand asks for when it is pushed. -/
def Operand.demand? (operand : Operand) : Option Demand :=
  match operand.source with
  | .slot number => some (.slot number)
  | .literal (.int value) => some (.constant (.int value))
  | .literal (.double bits) => some (.constant (.double bits))
  | .literal (.string text) => some (.constant (.string text))
  | .literal .null => none

/-- What the last instruction asks for: the identity of the operator if the runtime is called. -/
def Strategy.finalDemand? (strategy : Strategy) (operator : Operator) : Option Demand :=
  if strategy.callsRuntime then some (.constant (.operator operator.identity)) else none

/-- What a call asks for, in the order of the emission. -/
def Strategy.demands (strategy : Strategy) (operator : Operator) (operands : List Operand) :
    List Demand :=
  operands.filterMap Operand.demand? ++ (strategy.finalDemand? operator).toList

/-- The constants that a call asks for: those of its literals from left to right, and then the
identity of the operator if the runtime is called. -/
def Strategy.constants (strategy : Strategy) (operator : Operator) (operands : List Operand) :
    List Constant :=
  (strategy.demands operator operands).filterMap Demand.constant?

theorem Operand.demand?_eq_slot_iff {operand : Operand} {number : Nat} :
    operand.demand? = some (.slot number) ↔ operand.source = .slot number := by
  rw [demand?]
  cases operand.source with
  | slot other => simp
  | literal value => cases value <;> simp

theorem Strategy.slot_mem_demands_iff {strategy : Strategy} {operator : Operator}
    {operands : List Operand} {number : Nat} :
    .slot number ∈ strategy.demands operator operands ↔
      ∃ operand ∈ operands, operand.source = .slot number := by
  have never : .slot number ∉ (strategy.finalDemand? operator).toList := by
    rw [finalDemand?]
    split <;> simp
  rw [demands, List.mem_append, or_iff_left never, List.mem_filterMap]
  simp only [Operand.demand?_eq_slot_iff]

/-- The demands of a call fit if its slots can be named and there is room for its constants. -/
theorem Strategy.fit_demands_iff {pool : ConstantPool} {strategy : Strategy} {operator : Operator}
    {operands : List Operand} :
    Demand.Fit pool (strategy.demands operator operands) ↔
      (∀ operand ∈ operands, ∀ number, operand.source = .slot number → number ≤ 255) ∧
        (pool.missing (strategy.constants operator operands)).card ≤
          ConstantPool.addressable - pool.size := by
  rw [Demand.fit_iff, constants]
  refine and_congr_left' ?_
  simp only [slot_mem_demands_iff]
  constructor
  · exact fun named operand member number source => named number ⟨operand, member, source⟩
  · rintro named number ⟨operand, member, source⟩
    exact named operand member number source

namespace Emission

/-- The pool that a step leaves, or the cause of its failure. -/
def poolAfter {α : Type} : EStateM.Result CallError EmissionState α → Except CallError ConstantPool
  | .ok _ state => .ok state.pool
  | .error cause _ => .error cause

/-- The step fails exactly at the demands. -/
def Demands {α : Type} (step : Emission α) (demands : List Demand) : Prop :=
  ∀ state, poolAfter (step state) = Demand.meetAll state.pool demands

theorem demands_pure {α : Type} (value : α) : Demands (pure value) [] :=
  fun _ => rfl

theorem Demands.bind {α β : Type} {first : Emission α} {next : α → Emission β}
    {firstDemands nextDemands : List Demand} (firstAsks : Demands first firstDemands)
    (nextAsks : ∀ value, Demands (next value) nextDemands) :
    Demands (first >>= next) (firstDemands ++ nextDemands) := by
  intro state
  have asked := firstAsks state
  rw [Demand.meetAll_append, ← asked]
  cases ran : first state with
  | error cause after =>
      rw [bind_of_eq_error ran]
      rfl
  | ok value middle =>
      rw [bind_of_eq_ok ran]
      exact nextAsks value middle

theorem demands_instruction (opcode : Opcode) (operands : List UInt8) :
    Demands (instruction opcode operands) [] :=
  fun _ => rfl

theorem demands_position (value : Constant) : Demands (position value) [.constant value] := by
  intro state
  rw [Demand.meetAll_cons, Demand.meet, position]
  cases state.pool.intern? value with
  | none => rfl
  | some interned => rfl

theorem demands_constant (value : Constant) : Demands (constant value) [.constant value] := by
  refine (demands_position value).bind fun index => ?_
  split
  · exact demands_instruction _ _
  · exact demands_instruction _ _

theorem demands_builtin (operator : Operator) (arguments : UInt8) :
    Demands (builtin operator arguments) [.constant (.operator operator.identity)] :=
  (demands_position _).bind fun _ => demands_instruction _ _

theorem demands_slot (number : Nat) : Demands (slot number) [.slot number] := by
  intro state
  rw [Demand.meetAll_cons, Demand.meet_slot, slot]
  by_cases named : number ≤ 255
  · rw [if_pos named, if_pos named]
    rfl
  · rw [if_neg named, if_neg named]
    rfl

theorem demands_operand (value : Operand) : Demands (operand value) value.demand?.toList := by
  rw [operand, Operand.demand?]
  cases value.source with
  | slot number => exact demands_slot number
  | literal value =>
      cases value with
      | int value => exact demands_constant (.int value)
      | double bits => exact demands_constant (.double bits)
      | string text => exact demands_constant (.string text)
      | null => exact demands_instruction .pushNull []

theorem demands_fit {source target : TypeRoot} (accepted : target.accepts source = true) :
    Demands (fit source (some target)) [] := by
  rw [fit]
  split
  · rw [widen]
    split
    · exact demands_pure ()
    · next differs =>
        have widens : source.widensTo target = true :=
          ((TypeRoot.accepts_iff target source).1 accepted).resolve_left (Ne.symm differs)
        obtain ⟨opcode, converts⟩ := (source.widensTo_iff_exists_widening? target).1 widens
        rw [converts]
        exact demands_instruction opcode []
  · exact demands_pure ()

theorem demands_operands {values : List Operand} {signature : Signature}
    (accepted : signature.accepts (values.map (·.root)) = true) :
    Demands (operands values signature) (values.filterMap Operand.demand?) := by
  induction values generalizing signature with
  | nil => exact demands_pure ()
  | cons first rest induction =>
      cases signature with
      | nil => contradiction
      | cons target signature =>
          obtain ⟨here, later⟩ := (Bool.and_eq_true _ _).mp accepted
          have steps := (demands_operand first).bind fun _ =>
            (demands_fit here).bind fun _ => induction later
          have listed : (first :: rest).filterMap Operand.demand? =
              first.demand?.toList ++ ([] ++ rest.filterMap Operand.demand?) := by
            rw [List.filterMap_cons]
            cases first.demand? <;> rfl
          rw [operands_cons, listed]
          exact steps

end Emission

namespace Strategy

variable {strategy : Strategy} {site : CallSite} {plan : CallPlan}

theorem final_eq_builtin_iff (planned : strategy.plan site = .ok plan) :
    plan.final = .builtin ↔ strategy.callsRuntime = true := by
  obtain ⟨⟨-, small⟩, -, final⟩ := plan_eq_ok planned
  rw [← (final true).isCall_iff]
  cases plan.final with
  | instruction opcode operands => simp [FinalStep.action]
  | builtin => simp [FinalStep.action, CallSite.toNat_toUInt8_arity small]

theorem demands_emitFinal (planned : strategy.plan site = .ok plan) :
    Emission.Demands (emitFinal site plan.final) (strategy.finalDemand? site.operator).toList := by
  have calls := final_eq_builtin_iff planned
  rw [finalDemand?]
  cases last : plan.final with
  | instruction opcode operands =>
      have never : ¬strategy.callsRuntime = true := by
        rw [← calls, last]
        nofun
      rw [if_neg never]
      exact Emission.demands_instruction opcode operands
  | builtin =>
      rw [if_pos (calls.1 last)]
      exact Emission.demands_builtin site.operator _

/-- A call that is planned fails exactly at its demands. -/
theorem demands_emit (planned : strategy.plan site = .ok plan)
    (accepted : site.signature.accepts (site.operands.map (·.root)) = true) :
    Emission.Demands (strategy.emit site) (strategy.demands site.operator site.operands) := by
  have steps := ((Emission.demands_operands accepted).bind fun _ =>
    demands_emitFinal planned).bind fun _ =>
      Emission.demands_pure (plan.result.withNullable site.anyNullable)
  rw [List.append_nil] at steps
  rw [emit_of_plan_eq_ok planned]
  exact steps

end Strategy
end OperatorDispatch
