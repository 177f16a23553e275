import OperatorDispatch.Proofs.Call.Accounting
import OperatorDispatch.Proofs.Call.ResultType

/-!
# Causes that never arise

A plan fails only for the number or the roots of the operands, because the type of a result exists
whenever the types of the operands do.  Once it is planned, a call fails only at a slot or a
constant, because every root that a signature accepts has a conversion.  So two of the causes of a
failure never arise, whatever the overloads are.
-/

namespace OperatorDispatch

/-- Whether some call can fail with the cause. -/
def CallError.isReachable : CallError → Bool
  | unsupportedConversion _ _ | invalidResultType _ => false
  | _ => true

/-- The step fails only for causes that can arise. -/
def Refuses {α : Type} (step : Except CallError α) : Prop :=
  ∀ cause, step = .error cause → cause.isReachable = true

namespace Refuses

variable {α β : Type}

theorem ok (value : α) : Refuses (.ok value) :=
  fun _ failed => nomatch failed

theorem error {cause : CallError} (reachable : cause.isReachable = true) :
    Refuses (.error cause : Except CallError α) := by
  rintro _ ⟨⟩
  exact reachable

theorem bind {step : Except CallError α} {next : α → Except CallError β} (first : Refuses step)
    (second : ∀ value, step = .ok value → Refuses (next value)) : Refuses (step >>= next) := by
  intro cause failed
  cases outcome : step with
  | error other =>
      rw [outcome] at failed
      cases failed
      exact first cause outcome
  | ok value =>
      rw [outcome] at failed
      exact second value outcome cause failed

end Refuses

namespace CallSite

theorem refuses_binaryRoot (site : CallSite) : Refuses site.binaryRoot := by
  rw [binaryRoot]
  split
  · split
    · exact .ok _
    · exact .error rfl
  · exact .error rfl

theorem refuses_firstOperand (site : CallSite) : Refuses site.firstOperand := by
  rw [firstOperand]
  split
  · exact .ok _
  · exact .error rfl

theorem refuses_decimalParts (site : CallSite) (operand : Operand) :
    Refuses (site.decimalParts operand) := by
  rw [decimalParts]
  split
  · exact .ok _
  · exact .error rfl

end CallSite

namespace CallPlan

variable (site : CallSite)

theorem refuses_arithmetic (op : ArithmeticOp) : Refuses (arithmetic op site) := by
  refine site.refuses_binaryRoot.bind fun root _ => ?_
  split
  · exact .ok _
  · exact .error rfl

/-- The type of the result exists, since the types of the operands do. -/
theorem refuses_decimalArithmetic (op : ArithmeticOp) : Refuses (decimalArithmetic op site) := by
  rw [decimalArithmetic.eq_def]
  split
  · next left right given =>
      refine (site.refuses_decimalParts left).bind fun leftParts leftIs => ?_
      refine (site.refuses_decimalParts right).bind fun rightParts rightIs => ?_
      obtain ⟨type, typed⟩ := Decimal.exists_resultType op (CallSite.valid_of_decimalParts leftIs)
        (CallSite.valid_of_decimalParts rightIs)
      rw [typed]
      exact .ok _
  · exact .error rfl

theorem refuses_negate : Refuses (negate site) := by
  refine site.refuses_firstOperand.bind fun headed _ => ?_
  split
  split
  · exact .ok _
  · exact .error rfl

theorem refuses_comparison (op : ComparisonOp) : Refuses (comparison op site) := by
  refine site.refuses_binaryRoot.bind fun root _ => ?_
  split
  · exact .ok _
  · exact .error rfl

theorem refuses_math (function : MathFunction) : Refuses (math function site) := by
  cases function with
  | abs =>
      refine site.refuses_firstOperand.bind fun headed _ => ?_
      split
      split
      · exact .ok _
      · split
        · exact .ok _
        · exact .error rfl
  | _ => exact .ok _

/-- The type of a concatenation exists as soon as there is an operand. -/
theorem refuses_string (function : StringFunction) (given : site.operands ≠ []) :
    Refuses (string function site) := by
  cases function with
  | upper | lower =>
      refine site.refuses_firstOperand.bind fun headed _ => ?_
      exact .ok _
  | charLength => exact .ok _
  | concat =>
      have concatenated : Refuses (CharacterString.concatType site.operator site.operands) := by
        rcases CharacterString.concatType_cases site.operator given with
          ⟨type, typed⟩ | ⟨operand, -, -, refused⟩
        · exact typed ▸ .ok type
        · exact refused ▸ .error rfl
      exact concatenated.bind fun type _ => .ok _

end CallPlan

namespace Strategy

theorem refuses_checkArity (strategy : Strategy) (site : CallSite) :
    Refuses (strategy.checkArity site) := by
  rw [checkArity]
  split
  split
  · split
    · exact .ok _
    · exact .error rfl
  · exact .error rfl

theorem refuses_plan (strategy : Strategy) (site : CallSite) : Refuses (strategy.plan site) := by
  rw [plan.eq_def]
  refine (strategy.refuses_checkArity site).bind fun _ checked => ?_
  obtain ⟨⟨atLeast, -⟩, -⟩ := checkArity_eq_ok.1 checked
  cases strategy with
  | arithmetic op => exact CallPlan.refuses_arithmetic site op
  | decimalArithmetic op => exact CallPlan.refuses_decimalArithmetic site op
  | negate => exact CallPlan.refuses_negate site
  | comparison op => exact CallPlan.refuses_comparison site op
  | math function => exact CallPlan.refuses_math site function
  | string function =>
      have positive : 1 ≤ (string function).arity.1 := by cases function <;> decide
      have given : 1 ≤ site.operands.length := Nat.le_trans positive atLeast
      exact CallPlan.refuses_string site function (List.ne_nil_of_length_pos given)
  | timePoint function => exact .ok _

end Strategy

theorem Demand.isReachable_refusal (demand : Demand) : demand.refusal.isReachable = true := by
  cases demand <;> rfl

/-- Whatever the overloads are, a call fails only for a cause that can arise. -/
theorem OverloadTable.isReachable_of_compileAnew {table : OverloadTable Strategy}
    {pool : ConstantPool} (bounded : pool.size ≤ ConstantPool.addressable) {operator : Operator}
    {operands : List Operand} {cause : CallError}
    (failed : (table.compileAnew pool operator operands).1 = .error cause) :
    cause.isReachable = true := by
  cases chosen : table.resolve operator (operands.map (·.root)) with
  | none =>
      rw [compileAnew_of_none chosen] at failed
      cases failed
      rfl
  | some resolution =>
      cases planned : resolution.overload.strategy.plan
          ⟨operator, resolution.overload.signature, operands⟩ with
      | error reason =>
          have emitted := congrFun (Strategy.emit_of_plan_eq_error planned) { pool }
          rw [compileAnew_of_error chosen emitted] at failed
          cases failed
          exact resolution.overload.strategy.refuses_plan _ cause planned
      | ok plan =>
          obtain ⟨-, demand, -, -, -, -, rfl⟩ :=
            exists_first_unmet_of_compileAnew bounded chosen planned failed
          exact demand.isReachable_refusal

end OperatorDispatch
