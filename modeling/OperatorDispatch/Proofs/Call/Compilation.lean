import OperatorDispatch.Proofs.Call.History
import OperatorDispatch.Proofs.Machine.PoolContents

/-!
# One call without a memory

The outcome of a call and the pool after it follow from the table and the pool before it; what the
session remembers plays no part.  The pool only grows, and a call that fails leaves it as it was.
-/

namespace OperatorDispatch

/-- The outcome of a call and the pool after it, when the choice is made anew. -/
def OverloadTable.compileAnew (table : OverloadTable Strategy) (pool : ConstantPool)
    (operator : Operator) (operands : List Operand) :
    Except CallError CompiledCall × ConstantPool :=
  match table.resolve operator (operands.map (·.root)) with
  | none => (.error (.noMatchingSignature operator.name (operands.map (·.type))), pool)
  | some resolution =>
      match resolution.overload.strategy.emit
        ⟨operator, resolution.overload.signature, operands⟩ { pool } with
      | .ok type state => (.ok ⟨state.code, type, resolution.kind⟩, state.pool)
      | .error cause state => (.error cause, state.pool.truncate pool.size)

namespace OverloadTable

variable {table : OverloadTable Strategy} {pool : ConstantPool} {operator : Operator}
  {operands : List Operand} {resolution : Resolution Strategy} {type : LogicalType}
  {state : EmissionState} {cause : CallError}

theorem compileAnew_of_none
    (missed : table.resolve operator (operands.map (·.root)) = none) :
    table.compileAnew pool operator operands =
      (.error (.noMatchingSignature operator.name (operands.map (·.type))), pool) := by
  rw [compileAnew, missed]

theorem compileAnew_of_ok
    (chosen : table.resolve operator (operands.map (·.root)) = some resolution)
    (emitted : resolution.overload.strategy.emit
      ⟨operator, resolution.overload.signature, operands⟩ { pool } = .ok type state) :
    table.compileAnew pool operator operands =
      (.ok ⟨state.code, type, resolution.kind⟩, state.pool) := by
  simp only [compileAnew, chosen, emitted]

theorem compileAnew_of_error
    (chosen : table.resolve operator (operands.map (·.root)) = some resolution)
    (emitted : resolution.overload.strategy.emit
      ⟨operator, resolution.overload.signature, operands⟩ { pool } = .error cause state) :
    table.compileAnew pool operator operands =
      (.error cause, state.pool.truncate pool.size) := by
  simp only [compileAnew, chosen, emitted]

theorem extends_of_emit_ok {strategy : Strategy} {site : CallSite}
    (emitted : strategy.emit site { pool } = .ok type state) : pool.Extends state.pool := by
  have ended := strategy.callOutcome_emit site pool
  rw [emitted] at ended
  cases ended with
  | compiled _ _ _ _ _ _ grown _ => exact grown

theorem extends_of_emit_error {strategy : Strategy} {site : CallSite}
    (emitted : strategy.emit site { pool } = .error cause state) : pool.Extends state.pool := by
  have ended := strategy.callOutcome_emit site pool
  rw [emitted] at ended
  cases ended with
  | refused _ _ _ grown => exact grown
  | overflowed _ grown _ => exact grown

theorem exists_emit_of_compileAnew_ok {call : CompiledCall}
    (compiled : (table.compileAnew pool operator operands).1 = .ok call) :
    ∃ resolution state, table.resolve operator (operands.map (·.root)) = some resolution ∧
      resolution.overload.strategy.emit ⟨operator, resolution.overload.signature, operands⟩
        { pool } = .ok call.resultType state ∧
      call = ⟨state.code, call.resultType, resolution.kind⟩ ∧
      (table.compileAnew pool operator operands).2 = state.pool := by
  cases chosen : table.resolve operator (operands.map (·.root)) with
  | none =>
      rw [compileAnew_of_none chosen] at compiled
      contradiction
  | some resolution =>
      cases emitted : resolution.overload.strategy.emit
          ⟨operator, resolution.overload.signature, operands⟩ { pool } with
      | ok type state =>
          rw [compileAnew_of_ok chosen emitted] at compiled ⊢
          cases compiled
          exact ⟨resolution, state, rfl, emitted, rfl, rfl⟩
      | error reason state =>
          rw [compileAnew_of_error chosen emitted] at compiled
          contradiction

/-- A call that fails gives the constants back. -/
theorem constants_of_compileAnew_error
    (failed : (table.compileAnew pool operator operands).1 = .error cause) :
    (table.compileAnew pool operator operands).2.constants = pool.constants := by
  cases chosen : table.resolve operator (operands.map (·.root)) with
  | none => rw [compileAnew_of_none chosen]
  | some resolution =>
      cases emitted : resolution.overload.strategy.emit
          ⟨operator, resolution.overload.signature, operands⟩ { pool } with
      | ok type state =>
          rw [compileAnew_of_ok chosen emitted] at failed
          contradiction
      | error reason state =>
          rw [compileAnew_of_error chosen emitted]
          exact ConstantPool.constants_truncate (extends_of_emit_error emitted)

theorem extends_compileAnew (table : OverloadTable Strategy) (pool : ConstantPool)
    (operator : Operator) (operands : List Operand) :
    pool.Extends (table.compileAnew pool operator operands).2 := by
  cases outcome : (table.compileAnew pool operator operands).1 with
  | error cause =>
      rw [ConstantPool.Extends, constants_of_compileAnew_error outcome]
  | ok call =>
      obtain ⟨resolution, state, -, emitted, -, after⟩ := exists_emit_of_compileAnew_ok outcome
      rw [after]
      exact extends_of_emit_ok emitted

end OverloadTable

namespace Session

/-- In a session that remembers what the table answers, a call goes as it does without a memory. -/
theorem Faithful.compile_eq {session : Session} (faithful : session.Faithful) (operator : Operator)
    (operands : List Operand) :
    (session.compile operator operands).1 =
        (session.table.compileAnew session.pool operator operands).1 ∧
      (session.compile operator operands).2.pool =
        (session.table.compileAnew session.pool operator operands).2 := by
  obtain ⟨after, resolved, -, -, samePool⟩ := faithful.resolve operator (operands.map (·.root))
  rw [Session.compile, resolved, OverloadTable.compileAnew]
  cases session.table.resolve operator (operands.map (·.root)) with
  | none => exact ⟨rfl, samePool⟩
  | some resolution =>
      simp only [compileResolved, samePool]
      cases resolution.overload.strategy.emit
        ⟨operator, resolution.overload.signature, operands⟩ { pool := session.pool } with
      | ok type state => exact ⟨rfl, rfl⟩
      | error cause state => exact ⟨rfl, rfl⟩

end Session
end OperatorDispatch
