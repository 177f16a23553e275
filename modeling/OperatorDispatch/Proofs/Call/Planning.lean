import OperatorDispatch.Call.Strategy
import OperatorDispatch.Proofs.Types.Logical

/-!
# Planning before writing

A plan decides how a call is compiled without writing anything: it checks the operands, derives the
type of the result and chooses the last instruction.  Every strategy behaves as if it planned the
call first, and then pushed the operands and wrote the last instruction.  Each family is compared
with its plan on its own, since each has its own checks in its own order.
-/

namespace OperatorDispatch

/-- The last instruction of a call. -/
inductive FinalStep where
  /-- An instruction with its operand bytes. -/
  | instruction (opcode : Opcode) (operands : List UInt8)
  /-- A call of the runtime function that carries out the operator. -/
  | builtin
  deriving DecidableEq, Repr

/-- What a strategy has decided for a call. -/
structure CallPlan where
  /-- The last instruction. -/
  final : FinalStep
  /-- The type of the result, apart from its nullability. -/
  result : LogicalType
  deriving DecidableEq, Repr

/-- The expected root and the type of the first operand. -/
def CallSite.firstOperand (site : CallSite) : Except CallError (TypeRoot × LogicalType) :=
  match site.signature, site.operands with
  | root :: _, operand :: _ => .ok (root, operand.type)
  | _, _ => .error (site.unsupported .null)

namespace CallPlan

/-- Arithmetic on numeric primitives. -/
def arithmetic (op : ArithmeticOp) (site : CallSite) : Except CallError CallPlan := do
  let root ← site.binaryRoot
  match op.opcode? root with
  | some opcode => return ⟨.instruction opcode [], .simple root⟩
  | none => throw (site.unsupported root)

/-- Arithmetic on decimals. -/
def decimalArithmetic (op : ArithmeticOp) (site : CallSite) : Except CallError CallPlan := do
  match site.operands with
  | [left, right] =>
      let leftParts ← site.decimalParts left
      let rightParts ← site.decimalParts right
      let result ← (Decimal.resultType op leftParts rightParts).mapError .invalidResultType
      let (precision, scale) := Decimal.resultParts op leftParts rightParts
      return ⟨.instruction op.decimalOpcode [precision, scale], result⟩
  | operands => throw (.arityMismatch site.operator.name 2 operands.length)

/-- The unary minus.  A negated decimal keeps the type of the operand. -/
def negate (site : CallSite) : Except CallError CallPlan := do
  let (root, type) ← site.firstOperand
  match negationOpcode? root with
  | some opcode =>
      return ⟨.instruction opcode [], if root = .decimal then type else .simple root⟩
  | none => throw (site.unsupported root)

/-- A comparison. -/
def comparison (op : ComparisonOp) (site : CallSite) : Except CallError CallPlan := do
  let root ← site.binaryRoot
  match ValueClass.ofRoot? root with
  | some valueClass =>
      return ⟨.instruction .compare [op.kind.code, valueClass.code], .simple .boolean⟩
  | none => throw (site.unsupported root)

/-- A mathematical function.  All but the absolute value give doubles. -/
def math (function : MathFunction) (site : CallSite) : Except CallError CallPlan :=
  match function with
  | .abs => do
      let (root, type) ← site.firstOperand
      if root = .decimal then
        return ⟨.builtin, type⟩
      else if root.isNumericPrimitive then
        return ⟨.builtin, .simple root⟩
      else
        throw (site.unsupported root)
  | _ => .ok ⟨.builtin, .simple .double⟩

/-- A function on character strings. -/
def string (function : StringFunction) (site : CallSite) : Except CallError CallPlan := do
  match function with
  | .upper | .lower =>
      let (_, type) ← site.firstOperand
      return ⟨.builtin, type⟩
  | .charLength => return ⟨.builtin, .simple .integer⟩
  | .concat => return ⟨.builtin, ← CharacterString.concatType site.operator site.operands⟩

/-- A context function. -/
def timePoint (function : ContextFunction) : CallPlan :=
  ⟨.instruction .timePoint [function.timePoint.code, function.scope.code],
    function.timePoint.resultType⟩

end CallPlan

namespace Strategy

/-- Decides how the call is compiled, or refuses it. -/
def plan (strategy : Strategy) (site : CallSite) : Except CallError CallPlan := do
  strategy.checkArity site
  match strategy with
  | arithmetic op => CallPlan.arithmetic op site
  | decimalArithmetic op => CallPlan.decimalArithmetic op site
  | negate => CallPlan.negate site
  | comparison op => CallPlan.comparison op site
  | math function => CallPlan.math function site
  | string function => CallPlan.string function site
  | timePoint function => return CallPlan.timePoint function

/-- Writes the last instruction of a call. -/
def emitFinal (site : CallSite) : FinalStep → Emission Unit
  | .instruction opcode operands => Emission.instruction opcode operands
  | .builtin => Emission.builtin site.operator site.arity.toUInt8

end Strategy

/-! ## Binds of checks -/

theorem bind_eq_ok {ε α β : Type} {action : Except ε α} {next : α → Except ε β} {value : β} :
    action >>= next = .ok value ↔ ∃ middle, action = .ok middle ∧ next middle = .ok value := by
  cases action with
  | error cause => simp [bind, Except.bind]
  | ok middle => simp [bind, Except.bind]

theorem bind_eq_error {ε α β : Type} {action : Except ε α} {next : α → Except ε β} {cause : ε} :
    action >>= next = .error cause ↔
      action = .error cause ∨ ∃ middle, action = .ok middle ∧ next middle = .error cause := by
  cases action with
  | error reason => simp [bind, Except.bind]
  | ok middle => simp [bind, Except.bind]

@[simp] theorem ok_bind {ε α β : Type} (value : α) (next : α → Except ε β) :
    (Except.ok value >>= next) = next value := rfl

@[simp] theorem pure_eq_ok {ε α : Type} (value : α) : (pure value : Except ε α) = .ok value := rfl

namespace Strategy

theorem checkArity_eq_ok {strategy : Strategy} {site : CallSite} :
    strategy.checkArity site = .ok () ↔
      (strategy.arity.1 ≤ site.arity ∧ site.arity ≤ strategy.arity.2) ∧
        site.signature.length = site.arity := by
  rw [checkArity]
  by_cases fits : strategy.arity.1 ≤ site.arity ∧ site.arity ≤ strategy.arity.2
  · by_cases same : site.signature.length = site.arity
    · simp [fits, same]
    · simp [fits, same]
  · simp [fits]

/-- The arity of the strategy guards the first operand. -/
theorem exists_first_of_checkArity {strategy : Strategy} {site : CallSite}
    (checked : strategy.checkArity site = .ok ()) (positive : 1 ≤ strategy.arity.1) :
    ∃ root signature operand operands,
      site.signature = root :: signature ∧ site.operands = operand :: operands := by
  obtain ⟨⟨atLeast, -⟩, counted⟩ := checkArity_eq_ok.1 checked
  have arity : 1 ≤ site.operands.length := Nat.le_trans positive atLeast
  have length : 1 ≤ site.signature.length := Nat.le_trans arity (Nat.le_of_eq counted.symm)
  obtain ⟨operand, operands, given⟩ := List.exists_cons_of_length_pos arity
  obtain ⟨root, signature, matched⟩ := List.exists_cons_of_length_pos length
  exact ⟨root, signature, operand, operands, matched, given⟩

end Strategy

namespace CallSite

variable {site : CallSite} {root : TypeRoot} {signature : Signature} {operand : Operand}
  {operands : List Operand}

theorem firstOperand_of_cons (matched : site.signature = root :: signature)
    (given : site.operands = operand :: operands) :
    site.firstOperand = .ok (root, operand.type) := by
  rw [firstOperand, matched, given]

theorem firstRoot_of_cons (matched : site.signature = root :: signature) :
    site.firstRoot = .ok root := by
  rw [firstRoot, target?, matched, List.getElem?_cons_zero]

theorem firstType_of_cons (given : site.operands = operand :: operands) :
    site.firstType = .ok operand.type := by
  rw [firstType, given]

end CallSite

theorem TimePoint.type_eq_ok (point : TimePoint) : point.type = .ok point.resultType := by
  cases point <;> rfl

/-! ## Each family -/

namespace Emission

variable {α β : Type}

@[simp] theorem liftExcept_ok (value : α) :
    (liftExcept (Except.ok value : Except CallError α) : Emission α) = pure value := rfl

@[simp] theorem liftExcept_error (cause : CallError) :
    (liftExcept (Except.error cause : Except CallError α) : Emission α) = throw cause := rfl

@[simp] theorem throw_bind (cause : CallError) (next : α → Emission β) :
    (throw cause : Emission α) >>= next = throw cause := rfl

/-- Plans the call; only then pushes the operands and writes the last instruction. -/
def follow (site : CallSite) (plan : Except CallError CallPlan) : Emission LogicalType := do
  let plan ← liftExcept plan
  load site
  Strategy.emitFinal site plan.final
  return plan.result

@[simp] theorem follow_error (site : CallSite) (cause : CallError) :
    follow site (.error cause) = throw cause := rfl

@[simp] theorem follow_ok (site : CallSite) (plan : CallPlan) :
    follow site (.ok plan) =
      load site >>= fun _ => Strategy.emitFinal site plan.final >>= fun _ => pure plan.result := rfl

theorem arithmetic_eq_follow (op : ArithmeticOp) (site : CallSite) :
    arithmetic op site = follow site (CallPlan.arithmetic op site) := by
  rw [arithmetic, CallPlan.arithmetic]
  cases site.binaryRoot with
  | error cause => rfl
  | ok root =>
      cases chosen : op.opcode? root with
      | none => simp [chosen, CallSite.supported]; rfl
      | some opcode => simp [chosen, CallSite.supported]; rfl

theorem decimalArithmetic_eq_follow (op : ArithmeticOp) (site : CallSite) :
    decimalArithmetic op site = follow site (CallPlan.decimalArithmetic op site) := by
  rw [decimalArithmetic, CallPlan.decimalArithmetic]
  rcases site.operands with _ | ⟨left, _ | ⟨right, _ | ⟨third, rest⟩⟩⟩
  · rfl
  · rfl
  · dsimp only
    cases site.decimalParts left with
    | error cause => rfl
    | ok leftParts =>
        cases site.decimalParts right with
        | error cause => rfl
        | ok rightParts =>
            simp only [liftExcept_ok, pure_bind, ok_bind]
            cases typed : Decimal.resultType op leftParts rightParts with
            | error cause => rfl
            | ok result =>
                -- The type is built from the derived parts, so it has parts and has these.
                have parts : result.decimalParts? =
                    some (Decimal.resultParts op leftParts rightParts) :=
                  (LogicalType.decimalParts?_of_decimal typed).2
                have kept : (Except.ok result).mapError CallError.invalidResultType = .ok result :=
                  rfl
                simp only [kept, liftExcept_ok, pure_bind, parts, CallSite.supported]
                rfl
  · rfl

theorem negate_eq_follow {site : CallSite} {root : TypeRoot} {signature : Signature}
    {operand : Operand} {operands : List Operand} (matched : site.signature = root :: signature)
    (given : site.operands = operand :: operands) :
    negate site = follow site (CallPlan.negate site) := by
  rw [negate, CallPlan.negate, CallSite.firstRoot_of_cons matched,
    CallSite.firstType_of_cons given, CallSite.firstOperand_of_cons matched given]
  cases chosen : negationOpcode? root with
  | none => simp only [liftExcept_ok, pure_bind, ok_bind, chosen]; rfl
  | some opcode =>
      simp only [liftExcept_ok, pure_bind, ok_bind, chosen, CallSite.supported]
      split
      · rfl
      · rfl

theorem comparison_eq_follow (op : ComparisonOp) (site : CallSite) :
    comparison op site = follow site (CallPlan.comparison op site) := by
  rw [comparison, CallPlan.comparison]
  cases site.binaryRoot with
  | error cause => rfl
  | ok root =>
      simp only [liftExcept_ok, pure_bind, ok_bind]
      cases ValueClass.ofRoot? root with
      | none => rfl
      | some valueClass => rfl

theorem builtinCall_bind (site : CallSite) (result : LogicalType) :
    (builtinCall site >>= fun _ => pure result) = follow site (.ok ⟨.builtin, result⟩) := by
  rw [builtinCall, bind_assoc]
  rfl

theorem math_eq_follow (function : MathFunction) {site : CallSite} {root : TypeRoot}
    {signature : Signature} {operand : Operand} {operands : List Operand}
    (matched : site.signature = root :: signature) (given : site.operands = operand :: operands) :
    math function site = follow site (CallPlan.math function site) := by
  cases function with
  | abs =>
      rw [math, CallPlan.math, CallSite.firstRoot_of_cons matched,
        CallSite.firstType_of_cons given, CallSite.firstOperand_of_cons matched given]
      simp only [liftExcept_ok, pure_bind, ok_bind]
      split
      · exact builtinCall_bind site operand.type
      · split
        · exact builtinCall_bind site (.simple root)
        · rfl
  | log | log10 | ln | exp | sqrt | power => exact builtinCall_bind site (.simple .double)

theorem string_eq_follow (function : StringFunction) {site : CallSite} {root : TypeRoot}
    {signature : Signature} {operand : Operand} {operands : List Operand}
    (matched : site.signature = root :: signature) (given : site.operands = operand :: operands) :
    string function site = follow site (CallPlan.string function site) := by
  cases function with
  | upper | lower =>
      rw [string, CallPlan.string, CallSite.firstType_of_cons given,
        CallSite.firstOperand_of_cons matched given]
      exact builtinCall_bind site operand.type
  | charLength => exact builtinCall_bind site (.simple .integer)
  | concat =>
      rw [string, CallPlan.string]
      cases CharacterString.concatType site.operator site.operands with
      | error cause => rfl
      | ok type => exact builtinCall_bind site type

/-- Without operands there is nothing to push, and nothing that could make the result NULL. -/
theorem timePoint_eq_follow (function : ContextFunction) {site : CallSite}
    (given : site.operands = []) :
    timePoint function =
      site.withNullness <$> follow site (.ok (CallPlan.timePoint function)) := by
  have notNull : site.anyNullable = false := by
    rw [CallSite.anyNullable, given]
    rfl
  have kept : site.withNullness function.timePoint.resultType = function.timePoint.resultType := by
    rw [CallSite.withNullness, notNull]
    cases function.timePoint <;> rfl
  rw [follow_ok, load, given, map_bind]
  simp only [CallPlan.timePoint, Strategy.emitFinal, operands, pure_bind, map_bind, map_pure, kept]
  rw [timePoint, TimePoint.type_eq_ok]
  rfl

end Emission

namespace Strategy

/-- Every strategy compiles a call as if it planned the whole call before it pushed the first
operand. -/
theorem emit_eq_follow (strategy : Strategy) (site : CallSite) :
    strategy.emit site = site.withNullness <$> Emission.follow site (strategy.plan site) := by
  rw [emit.eq_def, plan.eq_def]
  cases checked : strategy.checkArity site with
  | error cause => rfl
  | ok _ =>
      simp only [Emission.liftExcept_ok, pure_bind, ok_bind]
      cases strategy with
      | arithmetic op =>
          exact congrArg (site.withNullness <$> ·) (Emission.arithmetic_eq_follow op site)
      | decimalArithmetic op =>
          exact congrArg (site.withNullness <$> ·) (Emission.decimalArithmetic_eq_follow op site)
      | negate =>
          obtain ⟨_, _, _, _, matched, given⟩ := exists_first_of_checkArity checked (Nat.le_refl 1)
          exact congrArg (site.withNullness <$> ·) (Emission.negate_eq_follow matched given)
      | comparison op =>
          exact congrArg (site.withNullness <$> ·) (Emission.comparison_eq_follow op site)
      | math function =>
          obtain ⟨_, _, _, _, matched, given⟩ := exists_first_of_checkArity checked
            (by cases function <;> decide)
          exact congrArg (site.withNullness <$> ·)
            (Emission.math_eq_follow function matched given)
      | string function =>
          obtain ⟨_, _, _, _, matched, given⟩ := exists_first_of_checkArity checked
            (by cases function <;> decide)
          exact congrArg (site.withNullness <$> ·)
            (Emission.string_eq_follow function matched given)
      | timePoint function =>
          have given : site.operands = [] :=
            List.length_eq_zero_iff.1 (Nat.le_zero.1 (checkArity_eq_ok.1 checked).1.2)
          exact Emission.timePoint_eq_follow function given

end Strategy
end OperatorDispatch
