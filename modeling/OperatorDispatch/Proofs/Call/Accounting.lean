import OperatorDispatch.Proofs.Call.Compilation
import OperatorDispatch.Proofs.Call.Demand

/-!
# Room in the pool

A call that is planned is compiled exactly if its demands fit the pool, and otherwise fails at the
first demand with which they no longer fit.  In no session does the pool hold more constants than
instructions can name.
-/

namespace OperatorDispatch

theorem OverloadTable.accepts_of_resolve {σ : Type} {table : OverloadTable σ} {operator : Operator}
    {roots : List TypeRoot} {resolution : Resolution σ}
    (chosen : table.resolve operator roots = some resolution) :
    resolution.overload ∈ table.overloads ∧ resolution.overload.signature.accepts roots = true := by
  obtain ⟨member, -, accepted⟩ :=
    accepts_of_scan ((table.resolve_eq_scan operator roots).symm.trans chosen)
  exact ⟨member, accepted⟩

namespace OverloadTable

variable {table : OverloadTable Strategy} {pool : ConstantPool} {operator : Operator}
  {operands : List Operand} {resolution : Resolution Strategy} {plan : CallPlan}
  {cause : CallError}

/-- The demands of a planned call decide the pool after its emission. -/
theorem poolAfter_emit (pool : ConstantPool)
    (chosen : table.resolve operator (operands.map (·.root)) = some resolution)
    (planned : resolution.overload.strategy.plan
      ⟨operator, resolution.overload.signature, operands⟩ = .ok plan) :
    Emission.poolAfter (resolution.overload.strategy.emit
        ⟨operator, resolution.overload.signature, operands⟩ { pool }) =
      Demand.meetAll pool (resolution.overload.strategy.demands operator operands) :=
  Strategy.demands_emit planned (accepts_of_resolve chosen).2 { pool }

/-- A planned call is compiled exactly if its demands fit. -/
theorem compileAnew_ok_iff (bounded : pool.size ≤ ConstantPool.addressable)
    (chosen : table.resolve operator (operands.map (·.root)) = some resolution)
    (planned : resolution.overload.strategy.plan
      ⟨operator, resolution.overload.signature, operands⟩ = .ok plan) :
    (∃ call, (table.compileAnew pool operator operands).1 = .ok call) ↔
      Demand.Fit pool (resolution.overload.strategy.demands operator operands) := by
  have met := poolAfter_emit pool chosen planned
  rw [← Demand.exists_meetAll_iff bounded, ← met]
  cases emitted : resolution.overload.strategy.emit
      ⟨operator, resolution.overload.signature, operands⟩ { pool } with
  | ok type state =>
      rw [compileAnew_of_ok chosen emitted]
      exact ⟨fun _ => ⟨state.pool, rfl⟩, fun _ => ⟨_, rfl⟩⟩
  | error reason state =>
      rw [compileAnew_of_error chosen emitted]
      exact ⟨nofun, nofun⟩

/-- A planned call that is not compiled fails at the first demand with which they no longer fit. -/
theorem exists_first_unmet_of_compileAnew (bounded : pool.size ≤ ConstantPool.addressable)
    (chosen : table.resolve operator (operands.map (·.root)) = some resolution)
    (planned : resolution.overload.strategy.plan
      ⟨operator, resolution.overload.signature, operands⟩ = .ok plan)
    (failed : (table.compileAnew pool operator operands).1 = .error cause) :
    ∃ earlier demand later,
      resolution.overload.strategy.demands operator operands = earlier ++ demand :: later ∧
        Demand.Fit pool earlier ∧ ¬Demand.Fit pool (earlier ++ [demand]) ∧
          cause = demand.refusal := by
  have met := poolAfter_emit pool chosen planned
  cases emitted : resolution.overload.strategy.emit
      ⟨operator, resolution.overload.signature, operands⟩ { pool } with
  | ok type state =>
      rw [compileAnew_of_ok chosen emitted] at failed
      contradiction
  | error reason state =>
      rw [compileAnew_of_error chosen emitted] at failed
      obtain rfl : reason = cause := Except.error.inj failed
      rw [emitted] at met
      exact Demand.exists_first_unmet bounded met.symm

theorem size_le_compileAnew (bounded : pool.size ≤ ConstantPool.addressable)
    (table : OverloadTable Strategy) (operator : Operator) (operands : List Operand) :
    (table.compileAnew pool operator operands).2.size ≤ ConstantPool.addressable := by
  cases outcome : (table.compileAnew pool operator operands).1 with
  | error cause =>
      have restored := constants_of_compileAnew_error outcome
      rw [ConstantPool.size, restored]
      exact bounded
  | ok call =>
      obtain ⟨resolution, state, chosen, emitted, -, after⟩ :=
        exists_emit_of_compileAnew_ok outcome
      rw [after]
      cases planned : resolution.overload.strategy.plan
          ⟨operator, resolution.overload.signature, operands⟩ with
      | error cause =>
          rw [Strategy.emit_of_plan_eq_error planned] at emitted
          contradiction
      | ok plan =>
          have met := poolAfter_emit pool chosen planned
          rw [emitted] at met
          exact Demand.size_le_of_meetAll bounded met.symm

end OverloadTable

namespace Session

theorem compileAll_append (session : Session) (first second : List (Operator × List Operand)) :
    session.compileAll (first ++ second) = (session.compileAll first).compileAll second :=
  List.foldl_append

namespace Faithful

variable {session : Session}

theorem extends_compile (faithful : session.Faithful) (operator : Operator)
    (operands : List Operand) :
    session.pool.Extends (session.compile operator operands).2.pool := by
  rw [(faithful.compile_eq operator operands).2]
  exact session.table.extends_compileAnew session.pool operator operands

theorem size_le_compile (faithful : session.Faithful)
    (bounded : session.pool.size ≤ ConstantPool.addressable) (operator : Operator)
    (operands : List Operand) :
    (session.compile operator operands).2.pool.size ≤ ConstantPool.addressable := by
  rw [(faithful.compile_eq operator operands).2]
  exact OverloadTable.size_le_compileAnew bounded session.table operator operands

theorem extends_compileAll (faithful : session.Faithful)
    (history : List (Operator × List Operand)) :
    session.pool.Extends (session.compileAll history).pool := by
  induction history generalizing session with
  | nil => exact .refl session.pool
  | cons call history induction =>
      have grown := faithful.extends_compile call.1 call.2
      exact grown.trans (induction (faithful.compile call.1 call.2).1)

/-- The pool never holds more constants than instructions can name. -/
theorem size_le_compileAll (faithful : session.Faithful)
    (bounded : session.pool.size ≤ ConstantPool.addressable)
    (history : List (Operator × List Operand)) :
    (session.compileAll history).pool.size ≤ ConstantPool.addressable := by
  induction history generalizing session with
  | nil => exact bounded
  | cons call history induction =>
      have within := faithful.size_le_compile bounded call.1 call.2
      exact induction (faithful.compile call.1 call.2).1 within

end Faithful

theorem size_le_of_context (context : Context) (history : List (Operator × List Operand)) :
    (context.session.compileAll history).pool.size ≤ ConstantPool.addressable :=
  (faithful_session context).size_le_compileAll (Nat.zero_le _) history

end Session
end OperatorDispatch
