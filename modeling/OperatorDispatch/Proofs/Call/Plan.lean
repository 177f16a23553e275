import OperatorDispatch.Proofs.Call.Emission
import OperatorDispatch.Proofs.Call.Planning
import OperatorDispatch.Proofs.Types.Logical

/-!
# Plans

A plan that is made fixes the last instruction of the call.  For each strategy this is the one that
the strategy stands for, with the number of operands that the strategy takes.
-/

namespace OperatorDispatch

/-- The last action of a call with the given result, by the strategy of the overload. -/
inductive FinalAction (operator : Operator) (signature : Signature) (arguments : Nat)
    (result : LogicalType) : Strategy → Action → Prop where
  | arithmetic {op : ArithmeticOp} {root : TypeRoot} {opcode : Opcode}
      (matched : signature = [root, root]) (chosen : op.opcode? root = some opcode) :
      FinalAction operator signature arguments result (.arithmetic op) (.direct opcode [])
  /-- The instruction carries precision and scale of the result. -/
  | decimalArithmetic {op : ArithmeticOp} {precision scale : UInt8}
      (parts : result.decimalParts? = some (precision, scale)) :
      FinalAction operator signature arguments result (.decimalArithmetic op)
        (.direct op.decimalOpcode [precision, scale])
  | negate {root : TypeRoot} {opcode : Opcode} (matched : signature = [root])
      (chosen : negationOpcode? root = some opcode) :
      FinalAction operator signature arguments result .negate (.direct opcode [])
  /-- The instruction carries the relation and the class of the values. -/
  | comparison {op : ComparisonOp} {root : TypeRoot} {valueClass : ValueClass}
      (matched : signature = [root, root])
      (comparable : ValueClass.ofRoot? root = some valueClass) :
      FinalAction operator signature arguments result (.comparison op)
        (.direct .compare [op.kind.code, valueClass.code])
  | math {function : MathFunction} :
      FinalAction operator signature arguments result (.math function)
        (.call operator.identity arguments)
  | string {function : StringFunction} :
      FinalAction operator signature arguments result (.string function)
        (.call operator.identity arguments)
  | timePoint {function : ContextFunction} :
      FinalAction operator signature arguments result (.timePoint function)
        (.direct .timePoint [function.timePoint.code, function.scope.code])

/-- The action of the last instruction of a call. -/
def FinalStep.action (site : CallSite) : FinalStep → Action
  | .instruction opcode operands => .direct opcode operands
  | .builtin => .call site.operator.identity site.arity.toUInt8.toNat

/-- The last instruction of a call is complete and names neither a slot nor a constant, a call of
the runtime apart. -/
def FinalStep.Complete : FinalStep → Prop
  | .instruction opcode operands =>
      opcode.isDirect = true ∧ operands.length = opcode.operandSize
  | .builtin => True

theorem means_emitFinal (site : CallSite) {final : FinalStep} (complete : final.Complete) :
    Emission.Means (Strategy.emitFinal site final) (.ok [final.action site]) 1 := by
  intro before
  cases final with
  | instruction opcode operands =>
      exact Emission.outcome_instruction complete.2 (.refl _) (Nat.le_succ _)
        (Action.ofInstruction?_direct _ complete.1 complete.2)
  | builtin => exact Emission.means_builtin site.operator site.arity.toUInt8 before

namespace CallSite

theorem toNat_toUInt8_arity {site : CallSite} (small : site.arity ≤ 2) :
    site.arity.toUInt8.toNat = site.arity :=
  UInt8.toNat_ofNat_of_lt' (Nat.lt_of_le_of_lt small (by decide))

theorem binaryRoot_eq_ok {site : CallSite} {root : TypeRoot} :
    site.binaryRoot = .ok root ↔ site.signature = [root, root] := by
  rw [binaryRoot]
  split
  · next left right matched =>
      rw [matched]
      by_cases same : left = right
      · simp [same]
      · simp only [if_neg same, reduceCtorEq, false_iff]
        intro equal
        simp_all
  · next signature other =>
      simp only [reduceCtorEq, false_iff]
      exact fun matched => other root root matched

theorem firstOperand_eq_ok {site : CallSite} {root : TypeRoot} {type : LogicalType} :
    site.firstOperand = .ok (root, type) ↔
      ∃ signature operand operands, site.signature = root :: signature ∧
        site.operands = operand :: operands ∧ operand.type = type := by
  rw [firstOperand]
  split
  · next first signature operand operands matched given =>
      simp [matched, given]
  · next other =>
      simp only [reduceCtorEq, false_iff]
      rintro ⟨signature, operand, operands, matched, given, -⟩
      exact other _ _ _ _ matched given

theorem decimalParts_eq_ok {site : CallSite} {operand : Operand} {parts : UInt8 × UInt8} :
    site.decimalParts operand = .ok parts ↔ operand.type.decimalParts? = some parts := by
  rw [decimalParts]
  split
  · next found => simp [found]
  · next missed => simp [missed]

end CallSite

namespace ArithmeticOp

theorem bare_of_opcode? {op : ArithmeticOp} {root : TypeRoot} {opcode : Opcode}
    (chosen : op.opcode? root = some opcode) :
    opcode.isDirect = true ∧ opcode.operandSize = 0 := by
  rw [opcode?.eq_def] at chosen
  split at chosen <;> cases chosen <;> exact ⟨rfl, rfl⟩

theorem wide_decimalOpcode (op : ArithmeticOp) :
    op.decimalOpcode.isDirect = true ∧ op.decimalOpcode.operandSize = 2 := by
  cases op <;> exact ⟨rfl, rfl⟩

end ArithmeticOp

theorem bare_of_negationOpcode? {root : TypeRoot} {opcode : Opcode}
    (chosen : negationOpcode? root = some opcode) :
    opcode.isDirect = true ∧ opcode.operandSize = 0 := by
  rw [negationOpcode?.eq_def] at chosen
  split at chosen <;> cases chosen <;> exact ⟨rfl, rfl⟩

namespace CallPlan

theorem arithmetic_eq_ok {op : ArithmeticOp} {site : CallSite} {plan : CallPlan}
    (planned : arithmetic op site = .ok plan) :
    ∃ root opcode, site.signature = [root, root] ∧ op.opcode? root = some opcode ∧
      plan = ⟨.instruction opcode [], .simple root⟩ := by
  obtain ⟨root, matched, planned⟩ := bind_eq_ok.1 planned
  cases chosen : op.opcode? root with
  | none => simp [chosen, throw, throwThe, MonadExceptOf.throw] at planned
  | some opcode =>
      simp only [chosen, pure, Except.pure, Except.ok.injEq] at planned
      exact ⟨root, opcode, CallSite.binaryRoot_eq_ok.1 matched, chosen, planned.symm⟩

theorem decimalArithmetic_eq_ok {op : ArithmeticOp} {site : CallSite} {plan : CallPlan}
    (planned : decimalArithmetic op site = .ok plan) :
    ∃ left right leftParts rightParts result, site.operands = [left, right] ∧
      left.type.decimalParts? = some leftParts ∧ right.type.decimalParts? = some rightParts ∧
        Decimal.resultType op leftParts rightParts = .ok result ∧
          plan = ⟨.instruction op.decimalOpcode
            [(Decimal.resultParts op leftParts rightParts).1,
              (Decimal.resultParts op leftParts rightParts).2], result⟩ := by
  rw [decimalArithmetic] at planned
  split at planned
  · next left right given =>
      obtain ⟨leftParts, leftIs, planned⟩ := bind_eq_ok.1 planned
      obtain ⟨rightParts, rightIs, planned⟩ := bind_eq_ok.1 planned
      obtain ⟨result, typed, planned⟩ := bind_eq_ok.1 planned
      refine ⟨left, right, leftParts, rightParts, result, given,
        CallSite.decimalParts_eq_ok.1 leftIs, CallSite.decimalParts_eq_ok.1 rightIs, ?_, ?_⟩
      · cases built : Decimal.resultType op leftParts rightParts with
        | error cause =>
            rw [built] at typed
            contradiction
        | ok type =>
            rw [built] at typed
            exact congrArg Except.ok (Except.ok.inj typed)
      · simpa [pure, Except.pure, eq_comm] using planned
  · simp [throw, throwThe, MonadExceptOf.throw] at planned

theorem negate_eq_ok {site : CallSite} {plan : CallPlan} (planned : negate site = .ok plan) :
    ∃ root signature operand operands opcode, site.signature = root :: signature ∧
      site.operands = operand :: operands ∧ negationOpcode? root = some opcode ∧
        plan = ⟨.instruction opcode [],
          if root = .decimal then operand.type else .simple root⟩ := by
  obtain ⟨⟨root, type⟩, first, planned⟩ := bind_eq_ok.1 planned
  obtain ⟨signature, operand, operands, matched, given, rfl⟩ :=
    CallSite.firstOperand_eq_ok.1 first
  cases chosen : negationOpcode? root with
  | none => simp [chosen, throw, throwThe, MonadExceptOf.throw] at planned
  | some opcode =>
      refine ⟨root, signature, operand, operands, opcode, matched, given, chosen, ?_⟩
      simpa [chosen, pure, Except.pure, eq_comm] using planned

theorem comparison_eq_ok {op : ComparisonOp} {site : CallSite} {plan : CallPlan}
    (planned : comparison op site = .ok plan) :
    ∃ root valueClass, site.signature = [root, root] ∧
      ValueClass.ofRoot? root = some valueClass ∧
        plan = ⟨.instruction .compare [op.kind.code, valueClass.code], .simple .boolean⟩ := by
  obtain ⟨root, matched, planned⟩ := bind_eq_ok.1 planned
  cases chosen : ValueClass.ofRoot? root with
  | none => simp [chosen, throw, throwThe, MonadExceptOf.throw] at planned
  | some valueClass =>
      simp only [chosen, pure, Except.pure, Except.ok.injEq] at planned
      exact ⟨root, valueClass, CallSite.binaryRoot_eq_ok.1 matched, chosen, planned.symm⟩

theorem final_of_math {function : MathFunction} {site : CallSite} {plan : CallPlan}
    (planned : math function site = .ok plan) : plan.final = .builtin := by
  rw [math.eq_def] at planned
  split at planned
  · obtain ⟨⟨root, type⟩, -, planned⟩ := bind_eq_ok.1 planned
    simp only at planned
    split at planned
    · cases planned
      rfl
    · split at planned
      · cases planned
        rfl
      · cases planned
  · cases planned
    rfl

theorem final_of_string {function : StringFunction} {site : CallSite} {plan : CallPlan}
    (planned : string function site = .ok plan) : plan.final = .builtin := by
  cases function with
  | upper | lower =>
      obtain ⟨⟨root, type⟩, -, planned⟩ := bind_eq_ok.1 planned
      cases planned
      rfl
  | charLength =>
      cases planned
      rfl
  | concat =>
      obtain ⟨type, -, planned⟩ := bind_eq_ok.1 planned
      cases planned
      rfl

end CallPlan

namespace Strategy

theorem arity_le_two (strategy : Strategy) : strategy.arity.2 ≤ 2 := by
  cases strategy with
  | math function => cases function <;> decide
  | string function => cases function <;> decide
  | _ => simp [arity]

theorem plan_eq_ok {strategy : Strategy} {site : CallSite} {plan : CallPlan}
    (planned : strategy.plan site = .ok plan) :
    (site.signature.length = site.arity ∧ site.arity ≤ 2) ∧ plan.final.Complete ∧
      ∀ nullable, FinalAction site.operator site.signature site.arity
        (plan.result.withNullable nullable) strategy (plan.final.action site) := by
  obtain ⟨_, checked, planned⟩ := bind_eq_ok.1 planned
  obtain ⟨⟨-, atMost⟩, matched⟩ := checkArity_eq_ok.1 checked
  have small : site.arity ≤ 2 := Nat.le_trans atMost strategy.arity_le_two
  have counted : site.arity.toUInt8.toNat = site.arity := CallSite.toNat_toUInt8_arity small
  refine ⟨⟨matched, small⟩, ?_⟩
  cases strategy with
  | arithmetic op =>
      obtain ⟨root, opcode, signature, chosen, rfl⟩ := CallPlan.arithmetic_eq_ok planned
      obtain ⟨direct, bare⟩ := ArithmeticOp.bare_of_opcode? chosen
      exact ⟨⟨direct, bare.symm⟩, fun _ => .arithmetic signature chosen⟩
  | decimalArithmetic op =>
      obtain ⟨left, right, leftParts, rightParts, result, -, -, -, typed, rfl⟩ :=
        CallPlan.decimalArithmetic_eq_ok planned
      obtain ⟨direct, wide⟩ := op.wide_decimalOpcode
      refine ⟨⟨direct, wide.symm⟩, fun _ => .decimalArithmetic ?_⟩
      exact (LogicalType.decimalParts?_of_decimal typed).2
  | negate =>
      obtain ⟨root, signature, operand, operands, opcode, headed, given, chosen, rfl⟩ :=
        CallPlan.negate_eq_ok planned
      obtain ⟨direct, bare⟩ := bare_of_negationOpcode? chosen
      have single : signature = [] := by
        rw [headed, List.length_cons] at matched
        have one : site.arity ≤ 1 := atMost
        exact List.length_eq_zero_iff.1 (by omega)
      exact ⟨⟨direct, bare.symm⟩, fun _ => .negate (single ▸ headed) chosen⟩
  | comparison op =>
      obtain ⟨root, valueClass, signature, comparable, rfl⟩ := CallPlan.comparison_eq_ok planned
      exact ⟨⟨rfl, rfl⟩, fun _ => .comparison signature comparable⟩
  | math function =>
      rw [CallPlan.final_of_math planned, FinalStep.action, counted]
      exact ⟨trivial, fun _ => .math⟩
  | string function =>
      rw [CallPlan.final_of_string planned, FinalStep.action, counted]
      exact ⟨trivial, fun _ => .string⟩
  | timePoint function =>
      cases planned
      exact ⟨⟨rfl, rfl⟩, fun _ => .timePoint⟩

/-! ## The whole call -/

/-- The type of the result and the actions of a call, or why there are none. -/
def meaning (strategy : Strategy) (site : CallSite) :
    Except CallError (LogicalType × List Action) := do
  let plan ← strategy.plan site
  let loads ← Operand.loaded site.operands site.signature
  return (plan.result.withNullable site.anyNullable, loads ++ [plan.final.action site])

/-- A call that starts from a pool is compiled to what it stands for, or fails with the cause that
is given for it, or the pool has no room for two more constants. -/
inductive CallOutcome (meaning : Except CallError (LogicalType × List Action))
    (pool : ConstantPool) : EStateM.Result CallError EmissionState LogicalType → Prop where
  /-- Instructions with the actions of the call were written. -/
  | compiled (type : LogicalType) (after : EmissionState) (instructions : List Instruction)
      (actions : List Action) (means : meaning = .ok (type, actions))
      (written : after.code.bytes = Instruction.encodeAll instructions)
      (grown : pool.Extends after.pool)
      (acts : instructions.mapM (Instruction.action? after.pool) = some actions) :
      CallOutcome meaning pool (.ok type after)
  /-- The call is refused, for the same cause. -/
  | refused (cause : CallError) (after : EmissionState) (means : meaning = .error cause)
      (grown : pool.Extends after.pool) : CallOutcome meaning pool (.error cause after)
  /-- A constant found no room. -/
  | overflowed (after : EmissionState) (grown : pool.Extends after.pool)
      (full : ConstantPool.addressable ≤ pool.size + 2) :
      CallOutcome meaning pool (.error (.poolOverflow ConstantPool.addressable) after)

theorem emit_of_plan_eq_error {strategy : Strategy} {site : CallSite} {cause : CallError}
    (planned : strategy.plan site = .error cause) : strategy.emit site = throw cause := by
  rw [emit_eq_follow, planned]
  rfl

theorem emit_of_plan_eq_ok {strategy : Strategy} {site : CallSite} {plan : CallPlan}
    (planned : strategy.plan site = .ok plan) :
    strategy.emit site =
      (Emission.operands site.operands site.signature >>= fun _ => emitFinal site plan.final) >>=
        fun _ => pure (plan.result.withNullable site.anyNullable) := by
  rw [emit_eq_follow, planned, Emission.follow_ok, bind_assoc, map_bind]
  simp only [map_bind, map_pure]
  rfl

/-- Compiling a call follows its meaning from every pool. -/
theorem callOutcome_emit (strategy : Strategy) (site : CallSite) (pool : ConstantPool) :
    CallOutcome (strategy.meaning site) pool (strategy.emit site { pool }) := by
  cases planned : strategy.plan site with
  | error cause =>
      rw [emit_of_plan_eq_error planned, meaning, planned]
      exact .refused cause { pool } rfl (.refl pool)
  | ok plan =>
      obtain ⟨⟨-, small⟩, complete, -⟩ := plan_eq_ok planned
      have steps := (Emission.means_operands site.operands site.signature).bind
        (means_emitFinal site complete)
      have ended := steps { pool }
      rw [emit_of_plan_eq_ok planned, meaning, planned]
      change CallOutcome _ _ (EStateM.bind (Emission.operands site.operands site.signature >>=
        fun _ => emitFinal site plan.final) _ _)
      rw [EStateM.bind]
      generalize (Emission.operands site.operands site.signature >>=
        fun _ => emitFinal site plan.final) { pool } = result at ended
      cases ended with
      | wrote after instructions actions means written grown bounded acts =>
          refine .compiled _ after instructions actions ?_ written grown acts
          cases loads : Operand.loaded site.operands site.signature with
          | error cause => rw [loads] at means; cases means
          | ok loads' =>
              rw [loads] at means
              cases means
              rfl
      | refused cause after means kept =>
          refine .refused cause after ?_ kept.2
          cases loads : Operand.loaded site.operands site.signature with
          | error cause' => rw [loads] at means; cases means; rfl
          | ok loads' => rw [loads] at means; cases means
      | overflowed after kept full bounded =>
          refine .overflowed after kept.2 ?_
          have counted : site.operands.length ≤ 2 := small
          have start : after.pool.size < pool.size + (site.operands.length + 1) := bounded
          omega

end Strategy
end OperatorDispatch
