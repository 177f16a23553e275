import OperatorDispatch.Proofs.Call.Compilation

/-!
# Failed calls leave no trace

What a step of an emission does is decided by the code and the constants it starts from, however
the positions of the constants are stored.  A call that fails gives the constants back, and what it
has added to the memory of choices is what the table would answer anyway.  So a history and the same
history without its failed calls lead to the same compiled calls and the same pool.
-/

namespace OperatorDispatch

/-- The states have the same code and the same constants. -/
def EmissionState.Same (left right : EmissionState) : Prop :=
  left.code = right.code ∧ left.pool.constants = right.pool.constants

namespace Emission

variable {α β : Type}

/-- Two steps end alike, up to the way in which positions are stored. -/
inductive SameEnd : EStateM.Result CallError EmissionState α →
    EStateM.Result CallError EmissionState α → Prop where
  | ok (value : α) {left right : EmissionState} (same : left.Same right) :
      SameEnd (.ok value left) (.ok value right)
  | error (cause : CallError) {left right : EmissionState} (same : left.Same right) :
      SameEnd (.error cause left) (.error cause right)

/-- The code and the constants before the step decide how it ends. -/
def Determined (step : Emission α) : Prop :=
  ∀ left right, EmissionState.Same left right → SameEnd (step left) (step right)

theorem determined_pure (value : α) : Determined (pure value) :=
  fun _ _ same => .ok value same

theorem determined_throw (cause : CallError) : Determined (throw cause : Emission α) :=
  fun _ _ same => .error cause same

theorem Determined.bind {first : Emission α} {next : α → Emission β}
    (firstDetermined : Determined first) (nextDetermined : ∀ value, Determined (next value)) :
    Determined (first >>= next) := by
  intro left right same
  have ended := firstDetermined left right same
  change SameEnd (EStateM.bind first next left) (EStateM.bind first next right)
  rw [EStateM.bind, EStateM.bind]
  generalize first left = leftResult, first right = rightResult at ended
  cases ended with
  | ok value same => exact nextDetermined value _ _ same
  | error cause same => exact .error cause same

theorem determined_instruction (opcode : Opcode) (operands : List UInt8) :
    Determined (instruction opcode operands) := by
  rintro left right ⟨code, constants⟩
  exact .ok () ⟨congrArg (·.appendInstruction opcode operands) code, constants⟩

theorem determined_position (value : Constant) : Determined (position value) := by
  rintro left right ⟨code, constants⟩
  have interned := ConstantPool.intern?_congr constants value
  rw [position, position]
  cases leftResult : left.pool.intern? value with
  | none =>
      cases rightResult : right.pool.intern? value with
      | none => exact .error _ ⟨code, constants⟩
      | some after => simp [leftResult, rightResult] at interned
  | some after =>
      cases rightResult : right.pool.intern? value with
      | none => simp [leftResult, rightResult] at interned
      | some other =>
          simp only [leftResult, rightResult, Option.map_some, Option.some.injEq,
            Prod.mk.injEq] at interned
          obtain ⟨index, kept⟩ := interned
          simp only [index]
          exact .ok other.1 ⟨code, kept⟩

theorem determined_constant (value : Constant) : Determined (constant value) := by
  refine (determined_position value).bind fun index => ?_
  split
  · exact determined_instruction _ _
  · exact determined_instruction _ _

theorem determined_slot (number : Nat) : Determined (slot number) := by
  rw [slot]
  split
  · exact determined_instruction _ _
  · exact determined_throw _

theorem determined_operand (value : Operand) : Determined (operand value) := by
  rw [operand]
  cases value.source with
  | slot number => exact determined_slot number
  | literal value =>
      cases value with
      | int value => exact determined_constant (.int value)
      | double bits => exact determined_constant (.double bits)
      | string text => exact determined_constant (.string text)
      | null => exact determined_instruction .pushNull []

theorem determined_fit (source : TypeRoot) (target? : Option TypeRoot) :
    Determined (fit source target?) := by
  rw [fit.eq_def]
  split
  · split
    · rw [widen]
      split
      · exact determined_pure ()
      · split
        · exact determined_instruction _ _
        · exact determined_throw _
    · exact determined_pure ()
  · exact determined_pure ()

theorem determined_operands (values : List Operand) (signature : Signature) :
    Determined (operands values signature) := by
  induction values generalizing signature with
  | nil => exact determined_pure ()
  | cons first rest induction =>
      rw [operands_cons]
      exact (determined_operand first).bind fun _ =>
        (determined_fit first.root signature.head?).bind fun _ => induction signature.tail

theorem determined_builtin (operator : Operator) (arguments : UInt8) :
    Determined (builtin operator arguments) :=
  (determined_position _).bind fun _ => determined_instruction _ _

end Emission

theorem Strategy.determined_emit (strategy : Strategy) (site : CallSite) :
    Emission.Determined (strategy.emit site) := by
  cases planned : strategy.plan site with
  | error cause =>
      rw [emit_of_plan_eq_error planned]
      exact Emission.determined_throw cause
  | ok plan =>
      have final : Emission.Determined (emitFinal site plan.final) := by
        cases plan.final with
        | instruction opcode operands => exact Emission.determined_instruction opcode operands
        | builtin => exact Emission.determined_builtin site.operator _
      rw [emit_of_plan_eq_ok planned]
      exact ((Emission.determined_operands site.operands site.signature).bind fun _ => final).bind
        fun _ => Emission.determined_pure _

/-- The constants before a call decide its outcome and the constants after it. -/
theorem OverloadTable.compileAnew_congr (table : OverloadTable Strategy)
    {left right : ConstantPool} (same : left.constants = right.constants) (operator : Operator)
    (operands : List Operand) :
    (table.compileAnew left operator operands).1 = (table.compileAnew right operator operands).1 ∧
      (table.compileAnew left operator operands).2.constants =
        (table.compileAnew right operator operands).2.constants := by
  cases chosen : table.resolve operator (operands.map (·.root)) with
  | none =>
      rw [compileAnew_of_none chosen, compileAnew_of_none chosen]
      exact ⟨rfl, same⟩
  | some resolution =>
      have ended := resolution.overload.strategy.determined_emit
        ⟨operator, resolution.overload.signature, operands⟩ { pool := left } { pool := right }
        ⟨rfl, same⟩
      generalize leftEmitted : resolution.overload.strategy.emit
        ⟨operator, resolution.overload.signature, operands⟩ { pool := left } = leftResult at ended
      generalize rightEmitted : resolution.overload.strategy.emit
        ⟨operator, resolution.overload.signature, operands⟩ { pool := right } = rightResult at ended
      cases ended with
      | ok type same =>
          rw [compileAnew_of_ok chosen leftEmitted, compileAnew_of_ok chosen rightEmitted, same.1]
          exact ⟨rfl, same.2⟩
      | error cause alike =>
          rw [compileAnew_of_error chosen leftEmitted, compileAnew_of_error chosen rightEmitted]
          refine ⟨rfl, ?_⟩
          have sizes : left.size = right.size := congrArg Array.size same
          rw [sizes]
          exact congrArg (·.take right.size) alike.2

namespace Session

/-! ## One call -/

/-- The sessions answer from the same table and hold the same constants, and neither remembers a
choice that the table would not make. -/
structure Alike (left right : Session) : Prop where
  leftFaithful : left.Faithful
  rightFaithful : right.Faithful
  table_eq : left.table = right.table
  constants_eq : left.pool.constants = right.pool.constants

variable {left right : Session}

theorem Alike.compile (alike : left.Alike right) (operator : Operator) (operands : List Operand) :
    (left.compile operator operands).1 = (right.compile operator operands).1 ∧
      (left.compile operator operands).2.Alike (right.compile operator operands).2 := by
  obtain ⟨leftKept, leftTable⟩ := alike.leftFaithful.compile operator operands
  obtain ⟨rightKept, rightTable⟩ := alike.rightFaithful.compile operator operands
  obtain ⟨leftOutcome, leftPool⟩ := alike.leftFaithful.compile_eq operator operands
  obtain ⟨rightOutcome, rightPool⟩ := alike.rightFaithful.compile_eq operator operands
  have tables := leftTable.trans (alike.table_eq.trans rightTable.symm)
  obtain ⟨outcomes, constants⟩ :=
    left.table.compileAnew_congr alike.constants_eq operator operands
  rw [← alike.table_eq] at rightOutcome rightPool
  rw [← leftOutcome, ← rightOutcome] at outcomes
  rw [← leftPool, ← rightPool] at constants
  exact ⟨outcomes, leftKept, rightKept, tables, constants⟩

theorem Alike.of_error (alike : left.Alike right) {operator : Operator} {operands : List Operand}
    {cause : CallError} (failed : (left.compile operator operands).1 = .error cause) :
    (left.compile operator operands).2.Alike right := by
  obtain ⟨kept, sameTable⟩ := alike.leftFaithful.compile operator operands
  obtain ⟨outcome, pool⟩ := alike.leftFaithful.compile_eq operator operands
  have constants : (left.compile operator operands).2.pool.constants = left.pool.constants := by
    rw [pool]
    exact OverloadTable.constants_of_compileAnew_error (outcome.symm.trans failed)
  exact ⟨kept, alike.rightFaithful, sameTable.trans alike.table_eq,
    constants.trans alike.constants_eq⟩

/-! ## A history and its successful calls -/

/-- The outcomes of calls that are compiled one after the other. -/
def outcomes (session : Session) :
    List (Operator × List Operand) → List (Except CallError CompiledCall)
  | [] => []
  | (operator, operands) :: calls =>
      (session.compile operator operands).1 ::
        (session.compile operator operands).2.outcomes calls

/-- The calls that are left when those that fail are deleted. -/
def succeeding (session : Session) (calls : List (Operator × List Operand)) :
    List (Operator × List Operand) :=
  ((calls.zip (session.outcomes calls)).filter fun (_, outcome) => outcome.isOk).map (·.1)

theorem compileAll_cons (session : Session) (operator : Operator) (operands : List Operand)
    (calls : List (Operator × List Operand)) :
    session.compileAll ((operator, operands) :: calls) =
      (session.compile operator operands).2.compileAll calls := rfl

/-- Without the calls that fail, a session like this one gives the remaining outcomes and ends like
it. -/
theorem Alike.succeeding (alike : left.Alike right) (calls : List (Operator × List Operand)) :
    right.outcomes (left.succeeding calls) = (left.outcomes calls).filter (·.isOk) ∧
      (left.compileAll calls).Alike (right.compileAll (left.succeeding calls)) := by
  -- Any two sessions that are alike: a failed call is made on the left only, and the left
  -- then remembers a choice and an event that the right lacks.
  induction calls generalizing left right with
  | nil => exact ⟨rfl, alike⟩
  | cons call calls induction =>
      obtain ⟨operator, operands⟩ := call
      obtain ⟨sameOutcome, alikeAfter⟩ := alike.compile operator operands
      cases outcome : (left.compile operator operands).1 with
      | ok compiled =>
          have kept : left.succeeding ((operator, operands) :: calls) = (operator, operands) ::
              (left.compile operator operands).2.succeeding calls := by
            simp [Session.succeeding, outcomes, outcome, Except.isOk, Except.toBool]
          obtain ⟨remaining, ending⟩ := induction alikeAfter
          rw [kept, compileAll_cons, compileAll_cons]
          refine ⟨?_, ending⟩
          rw [outcomes, outcomes, remaining, ← sameOutcome, outcome]
          rfl
      | error cause =>
          have dropped : left.succeeding ((operator, operands) :: calls) =
              (left.compile operator operands).2.succeeding calls := by
            simp [Session.succeeding, outcomes, outcome, Except.isOk, Except.toBool]
          obtain ⟨remaining, ending⟩ := induction (alike.of_error outcome)
          rw [dropped, compileAll_cons]
          refine ⟨?_, ending⟩
          rw [outcomes, remaining, outcome]
          rfl

/-- A fresh session that compiles only the calls that succeed gives the same compiled calls, down to
the bytes, and ends with the same constants, each found at the same position. -/
theorem outcomes_succeeding (context : Context) (calls : List (Operator × List Operand)) :
    let fresh := context.session
    let kept := fresh.succeeding calls
    fresh.outcomes kept = (fresh.outcomes calls).filter (·.isOk) ∧
      (fresh.compileAll kept).pool.constants = (fresh.compileAll calls).pool.constants ∧
        ∀ constant, (fresh.compileAll kept).pool.find? constant =
          (fresh.compileAll calls).pool.find? constant := by
  intro fresh kept
  have faithful : fresh.Faithful := faithful_session context
  have alike : fresh.Alike fresh := ⟨faithful, faithful, rfl, rfl⟩
  obtain ⟨remaining, ending⟩ := alike.succeeding calls
  have constants := ending.constants_eq.symm
  exact ⟨remaining, constants, ConstantPool.find?_congr constants⟩

end Session
end OperatorDispatch
