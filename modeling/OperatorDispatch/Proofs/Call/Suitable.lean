import OperatorDispatch.Call.StandardCatalog
import OperatorDispatch.Proofs.Call.ResultType

/-!
# Overloads whose calls are always planned

A strategy suits a signature if it takes that many operands and has an instruction and a type of
the result for the roots.  Every call that is matched on the signature of a suitable overload is
planned, whatever the parameters of its operands are.
-/

namespace OperatorDispatch

theorem TypeRoot.not_isNumericPrimitive_of_string {root : TypeRoot}
    (string : root.isInAll [.characterString] = true) : root.isNumericPrimitive = false := by
  cases root <;> first | rfl | contradiction

namespace LogicalType

theorem exists_length? {type : LogicalType} (string : type.root.isInAll [.characterString] = true) :
    ∃ length, type.length? = some length := by
  obtain ⟨root, params, nullable, admitted⟩ := type
  cases root with
  | char | varchar =>
      cases params with
      | length length => exact ⟨length, rfl⟩
      | _ => contradiction
  | _ => contradiction

end LogicalType

namespace Strategy

/-- The strategy has an instruction and a type of the result for the roots. -/
def handles (strategy : Strategy) (signature : Signature) : Bool :=
  match strategy with
  | arithmetic op =>
      signature.any fun root => signature = [root, root] && (op.opcode? root).isSome
  | decimalArithmetic _ => signature = [.decimal, .decimal]
  | negate => signature.all fun root => (negationOpcode? root).isSome
  | comparison _ =>
      signature.any fun root => signature = [root, root] && (ValueClass.ofRoot? root).isSome
  | math .abs => signature.all fun root => root = .decimal || root.isNumericPrimitive
  | string .concat => signature.all (·.isInAll [.characterString])
  | _ => true

/-- The roots are as many as the strategy takes, and it handles them. -/
def suits (strategy : Strategy) (signature : Signature) : Bool :=
  strategy.arity.1 ≤ signature.length && signature.length ≤ strategy.arity.2 &&
    strategy.handles signature

theorem suits_iff {strategy : Strategy} {signature : Signature} :
    strategy.suits signature = true ↔
      (strategy.arity.1 ≤ signature.length ∧ signature.length ≤ strategy.arity.2) ∧
        strategy.handles signature = true := by
  simp [suits]

end Strategy

/-- Where nothing is widened, the roots of the operands are the signature. -/
theorem Signature.eq_of_accepts {signature : Signature} {roots : List TypeRoot}
    (accepted : signature.accepts roots = true)
    (fixed : ∀ candidate ∈ signature, candidate.isNumericPrimitive = false) :
    signature = roots := by
  by_contra other
  obtain ⟨position, candidate, input, signatureAt, -, widens⟩ :=
    exists_widensTo_of_accepts accepted other
  have numeric := (TypeRoot.isNumericPrimitive_of_widensTo widens).2
  rw [fixed candidate (List.mem_of_getElem? signatureAt)] at numeric
  contradiction

namespace CallPlan

variable (site : CallSite) {root : TypeRoot}

theorem exists_arithmetic {op : ArithmeticOp} {opcode : Opcode}
    (matched : site.signature = [root, root]) (chosen : op.opcode? root = some opcode) :
    ∃ plan, arithmetic op site = .ok plan := by
  refine ⟨⟨.instruction opcode [], .simple root⟩, ?_⟩
  rw [arithmetic, CallSite.binaryRoot_eq_ok.2 matched]
  simp [chosen]

theorem exists_decimalArithmetic (op : ArithmeticOp) {left right : Operand}
    (given : site.operands = [left, right]) (leftDecimal : left.root = .decimal)
    (rightDecimal : right.root = .decimal) : ∃ plan, decimalArithmetic op site = .ok plan := by
  obtain ⟨leftParts, leftKnown⟩ := LogicalType.exists_decimalParts? leftDecimal
  obtain ⟨rightParts, rightKnown⟩ := LogicalType.exists_decimalParts? rightDecimal
  obtain ⟨type, typed⟩ := Decimal.exists_resultType op
    (LogicalType.valid_of_decimalParts? leftKnown) (LogicalType.valid_of_decimalParts? rightKnown)
  rw [decimalArithmetic, given]
  simp [CallSite.decimalParts, leftKnown, rightKnown, typed, Except.mapError]

theorem exists_negate {operand : Operand} {opcode : Opcode} (matched : site.signature = [root])
    (given : site.operands = [operand]) (chosen : negationOpcode? root = some opcode) :
    ∃ plan, negate site = .ok plan := by
  have first := CallSite.firstOperand_of_cons matched given
  rw [negate, first]
  simp [chosen]

theorem exists_comparison (op : ComparisonOp) {valueClass : ValueClass}
    (matched : site.signature = [root, root])
    (comparable : ValueClass.ofRoot? root = some valueClass) :
    ∃ plan, comparison op site = .ok plan := by
  rw [comparison, CallSite.binaryRoot_eq_ok.2 matched]
  simp [comparable]

theorem exists_abs {operand : Operand} (matched : site.signature = [root])
    (given : site.operands = [operand])
    (numeric : root = .decimal ∨ root.isNumericPrimitive = true) :
    ∃ plan, math .abs site = .ok plan := by
  have first := CallSite.firstOperand_of_cons matched given
  rw [math, first]
  by_cases decimal : root = .decimal
  · simp [decimal]
  · simp [decimal, numeric.resolve_left decimal]

theorem exists_string (function : StringFunction) {signature : Signature} {operand : Operand}
    {operands : List Operand} (matched : site.signature = root :: signature)
    (given : site.operands = operand :: operands)
    (strings : function = .concat →
      ∀ operand ∈ site.operands, operand.root.isInAll [.characterString] = true) :
    ∃ plan, string function site = .ok plan := by
  have first := CallSite.firstOperand_of_cons matched given
  cases function with
  | upper | lower => exact ⟨⟨.builtin, operand.type⟩, by rw [string.eq_def, first]; rfl⟩
  | charLength => exact ⟨_, rfl⟩
  | concat =>
      have nonempty : site.operands ≠ [] := by simp [given]
      rcases CharacterString.concatType_cases site.operator nonempty with
        ⟨type, typed⟩ | ⟨other, member, unknown, -⟩
      · exact ⟨⟨.builtin, type⟩, by simp [string, typed]⟩
      · obtain ⟨length, known⟩ := LogicalType.exists_length? (strings rfl other member)
        rw [unknown] at known
        contradiction

end CallPlan

namespace Strategy

theorem exists_singletons {signature : Signature} {operands : List Operand}
    (counted : signature.length = operands.length) (atLeast : 1 ≤ signature.length)
    (atMost : signature.length ≤ 1) :
    ∃ root operand, signature = [root] ∧ operands = [operand] := by
  obtain ⟨root, rootIs⟩ := List.length_eq_one_iff.1 (Nat.le_antisymm atMost atLeast)
  obtain ⟨operand, operandIs⟩ := List.length_eq_one_iff.1
    (counted.symm.trans (Nat.le_antisymm atMost atLeast))
  exact ⟨root, operand, rootIs, operandIs⟩

/-- A call that is matched on the signature of a suitable overload is planned. -/
theorem exists_plan {strategy : Strategy} {signature : Signature} {operands : List Operand}
    (suits : strategy.suits signature = true)
    (accepted : signature.accepts (operands.map (·.root)) = true) (operator : Operator) :
    ∃ plan, strategy.plan ⟨operator, signature, operands⟩ = .ok plan := by
  obtain ⟨⟨atLeast, atMost⟩, handled⟩ := suits_iff.1 suits
  have counted : signature.length = operands.length := by
    rw [Signature.length_eq_of_accepts accepted, List.length_map]
  have checked : strategy.checkArity ⟨operator, signature, operands⟩ = .ok () := by
    refine checkArity_eq_ok.2 ⟨?_, counted⟩
    rw [CallSite.arity, ← counted]
    exact ⟨atLeast, atMost⟩
  rw [plan.eq_def, checked]
  cases strategy with
  | arithmetic op =>
      obtain ⟨root, -, matched, chosen⟩ : ∃ root ∈ signature, signature = [root, root] ∧
          (op.opcode? root).isSome = true := by simpa [handles] using handled
      obtain ⟨opcode, chosen⟩ := Option.isSome_iff_exists.1 chosen
      exact CallPlan.exists_arithmetic ⟨operator, signature, operands⟩ matched chosen
  | decimalArithmetic op =>
      obtain rfl : signature = [.decimal, .decimal] := by simpa [handles] using handled
      have roots := Signature.eq_of_accepts accepted (by decide)
      obtain ⟨left, right, rfl⟩ := List.length_eq_two.1 counted.symm
      simp only [List.map_cons, List.map_nil, List.cons.injEq, and_true] at roots
      exact CallPlan.exists_decimalArithmetic ⟨operator, _, [left, right]⟩ op rfl roots.1.symm
        roots.2.symm
  | negate =>
      obtain ⟨root, operand, rfl, rfl⟩ := exists_singletons counted atLeast atMost
      obtain ⟨opcode, chosen⟩ : ∃ opcode, negationOpcode? root = some opcode := by
        simpa [handles, Option.isSome_iff_exists] using handled
      exact CallPlan.exists_negate ⟨operator, [root], [operand]⟩ rfl rfl chosen
  | comparison op =>
      obtain ⟨root, -, matched, comparable⟩ : ∃ root ∈ signature, signature = [root, root] ∧
          (ValueClass.ofRoot? root).isSome = true := by simpa [handles] using handled
      obtain ⟨valueClass, comparable⟩ := Option.isSome_iff_exists.1 comparable
      exact CallPlan.exists_comparison ⟨operator, signature, operands⟩ op matched comparable
  | math function =>
      cases function with
      | abs =>
          obtain ⟨root, operand, rfl, rfl⟩ := exists_singletons counted atLeast atMost
          have numeric : root = .decimal ∨ root.isNumericPrimitive = true := by
            simpa [handles] using handled
          exact CallPlan.exists_abs ⟨operator, [root], [operand]⟩ rfl rfl numeric
      | _ => exact ⟨_, rfl⟩
  | string function =>
      have positive : 1 ≤ signature.length := by
        cases function <;> simp [arity] at atLeast <;> omega
      obtain ⟨root, signature, rfl⟩ := List.exists_cons_of_length_pos positive
      obtain ⟨operand, operands, rfl⟩ := List.exists_cons_of_length_pos (counted ▸ positive)
      refine CallPlan.exists_string ⟨operator, root :: signature, operand :: operands⟩ function rfl
        rfl ?_
      rintro rfl
      have strings : ∀ candidate ∈ root :: signature,
          candidate.isInAll [.characterString] = true := List.all_eq_true.1 handled
      have roots := Signature.eq_of_accepts accepted fun candidate member =>
        TypeRoot.not_isNumericPrimitive_of_string (strings candidate member)
      rw [roots] at strings
      exact fun operand member => strings operand.root (List.mem_map_of_mem member)
  | timePoint function => exact ⟨_, rfl⟩

theorem suits_standardCatalog :
    ∀ overload ∈ standardCatalog.overloads, overload.strategy.suits overload.signature = true := by
  decide +kernel

end Strategy
end OperatorDispatch
