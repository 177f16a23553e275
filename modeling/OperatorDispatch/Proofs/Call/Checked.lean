import OperatorDispatch.Proofs.Call.Refusal

/-!
# No call goes wrong

Compiling a call reads operands by their positions, subtracts digits and narrows numbers to bytes.
Here each of these operations is checked and a fault stops the compilation.  No check ever fires:
the arity of the strategy guards the positions, and what types can be built bounds the digits.  For
the same reasons no call is refused for a missing conversion or for the type of its result.
-/

namespace OperatorDispatch

/-- What stops a compilation without an answer. -/
inductive Fault where
  /-- There is no operand at the position. -/
  | outOfBounds (position operands : Nat)
  /-- More is subtracted than is there. -/
  | underflow (minuend subtrahend : UInt32)
  /-- The number is too large for a byte. -/
  | narrowing (value : Nat)
  deriving DecidableEq, Repr

/-- A compilation that may be refused, and may be stopped by a fault. -/
abbrev Checked := ExceptT CallError (Except Fault)

namespace Checked

variable {α β : Type}

/-- A step in which nothing is checked. -/
def lift (step : Except CallError α) : Checked α :=
  ExceptT.mk (.ok step)

/-- A step that nothing refuses. -/
def check (step : Except Fault α) : Checked α :=
  ExceptT.mk (step.map .ok)

/-- The operand at a position. -/
def operand (site : CallSite) (position : Nat) : Except Fault Operand :=
  match site.operands[position]? with
  | some operand => .ok operand
  | none => .error (.outOfBounds position site.arity)

/-- The difference of two numbers. -/
def sub (minuend subtrahend : UInt32) : Except Fault UInt32 :=
  if subtrahend ≤ minuend then .ok (minuend - subtrahend)
  else .error (.underflow minuend subtrahend)

/-- The byte with the value. -/
def byte (value : Nat) : Except Fault UInt8 :=
  if value ≤ 255 then .ok value.toUInt8 else .error (.narrowing value)

/-! ## The compilation with its checks -/

/-- The precision and the scale that hold every result of the operation. -/
def derive (op : ArithmeticOp) (left right : UInt32 × UInt32) : Except Fault (UInt32 × UInt32) :=
  let (p₁, s₁) := left
  let (p₂, s₂) := right
  match op with
  | .add | .subtract => do
      let scale := max s₁ s₂
      return (max (← sub p₁ s₁) (← sub p₂ s₂) + scale + 1, scale)
  | .multiply => return (p₁ + p₂, s₁ + s₂)
  | .divide => do
      let scale := max Decimal.keptScale (s₁ + p₂ + 1)
      return ((← sub p₁ s₁) + s₂ + scale, scale)
  | .modulo => do
      let scale := max s₁ s₂
      return (min (← sub p₁ s₁) (← sub p₂ s₂) + scale, scale)

/-- Fits a precision and a scale into 38 digits. -/
def adjust (precision scale : UInt32) : Except Fault (UInt8 × UInt8) :=
  if precision ≤ Decimal.maxDigits then do
    return (← byte (max precision 1).toNat, ← byte scale.toNat)
  else do
    let integral ← sub precision scale
    let room := if integral ≤ Decimal.maxDigits then Decimal.maxDigits - integral else 0
    return (← byte Decimal.maxDigits.toNat,
      ← byte (max room (min scale Decimal.keptScale)).toNat)

/-- The precision and the scale of the result of an operation on two decimals. -/
def resultParts (op : ArithmeticOp) (left right : UInt8 × UInt8) :
    Except Fault (UInt8 × UInt8) := do
  let widen (parts : UInt8 × UInt8) := (parts.1.toUInt32, parts.2.toUInt32)
  let (precision, scale) ← derive op (widen left) (widen right)
  adjust precision scale

/-- Arithmetic on decimals. -/
def decimalArithmetic (op : ArithmeticOp) (site : CallSite) : Checked CallPlan :=
  match site.operands with
  | [left, right] => do
      let leftParts ← lift (site.decimalParts left)
      let rightParts ← lift (site.decimalParts right)
      let (precision, scale) ← check (resultParts op leftParts rightParts)
      let result ← lift ((LogicalType.decimal precision scale).mapError .invalidResultType)
      return ⟨.instruction op.decimalOpcode [precision, scale], result⟩
  | operands => lift (.error (.arityMismatch site.operator.name 2 operands.length))

/-- The unary minus. -/
def negate (site : CallSite) : Checked CallPlan := do
  let root ← lift site.firstRoot
  match negationOpcode? root with
  | some opcode =>
      if root = .decimal then
        return ⟨.instruction opcode [], (← check (operand site 0)).type⟩
      else
        return ⟨.instruction opcode [], .simple root⟩
  | none => lift (.error (site.unsupported root))

/-- A mathematical function. -/
def math (function : MathFunction) (site : CallSite) : Checked CallPlan :=
  match function with
  | .abs => do
      let root ← lift site.firstRoot
      if root = .decimal then
        return ⟨.builtin, (← check (operand site 0)).type⟩
      else if root.isNumericPrimitive then
        return ⟨.builtin, .simple root⟩
      else
        lift (.error (site.unsupported root))
  | function => lift (CallPlan.math function site)

/-- A function on character strings. -/
def string (function : StringFunction) (site : CallSite) : Checked CallPlan :=
  match function with
  | .upper | .lower => do return ⟨.builtin, (← check (operand site 0)).type⟩
  | function => lift (CallPlan.string function site)

/-- A context function. -/
def timePoint (function : ContextFunction) : Checked CallPlan := do
  let result ← lift (function.timePoint.type.mapError .invalidResultType)
  return ⟨.instruction .timePoint [function.timePoint.code, function.scope.code], result⟩

/-- Decides how the call is compiled, or refuses it. -/
def plan (strategy : Strategy) (site : CallSite) : Checked CallPlan := do
  lift (strategy.checkArity site)
  match strategy with
  | .arithmetic op => lift (CallPlan.arithmetic op site)
  | .decimalArithmetic op => decimalArithmetic op site
  | .negate => negate site
  | .comparison op => lift (CallPlan.comparison op site)
  | .math function => math function site
  | .string function => string function site
  | .timePoint function => timePoint function

/-- Writes the last instruction of a call. -/
def emitFinal (site : CallSite) : FinalStep → Except Fault (Emission Unit)
  | .instruction opcode operands => return Emission.instruction opcode operands
  | .builtin => do return Emission.builtin site.operator (← byte site.arity)

/-- Compiles the call and gives the type of its result. -/
def emit (strategy : Strategy) (site : CallSite) : Except Fault (Emission LogicalType) := do
  match ← (plan strategy site).run with
  | .error cause => return throw cause
  | .ok plan =>
      let last ← emitFinal site plan.final
      return do
        Emission.operands site.operands site.signature
        last
        return plan.result.withNullable site.anyNullable

/-- Compiles a call. -/
def compile (session : Session) (operator : Operator) (operands : List Operand) :
    Except Fault (Except CallError CompiledCall × Session) :=
  match session.resolve operator (operands.map (·.root)) with
  | (some resolution, session) => do
      let signature := resolution.overload.signature
      let emission ← emit resolution.overload.strategy ⟨operator, signature, operands⟩
      match emission { pool := session.pool } with
      | .ok resultType state =>
          let event := .compiledCall operator.name signature resultType state.code.size
          return (.ok ⟨state.code, resultType, resolution.kind⟩,
            { session with pool := state.pool }.note event)
      | .error cause state =>
          return (.error cause, { session with pool := state.pool.truncate session.pool.size })
  | (none, session) =>
      let types := operands.map (·.type)
      return (.error (.noMatchingSignature operator.name types),
        session.note (.unmatchedCall operator.name types))

/-! ## No check fires -/

theorem lift_bind (step : Except CallError α) (next : α → Except CallError β) :
    (lift step >>= fun value => lift (next value)) = lift (step >>= next) := by
  cases step with
  | error cause => rfl
  | ok value => rfl

@[simp] theorem lift_ok_bind (value : α) (next : α → Checked β) :
    (lift (.ok value) >>= next) = next value := rfl

theorem sub_eq_ok {minuend subtrahend : UInt32} (enough : subtrahend.toNat ≤ minuend.toNat) :
    sub minuend subtrahend = .ok (minuend - subtrahend) :=
  if_pos (UInt32.le_iff_toNat_le.2 enough)

theorem byte_eq_ok {value : Nat} (small : value ≤ 255) : byte value = .ok value.toUInt8 :=
  if_pos small

/-- Types have at least as many digits as fractional digits. -/
theorem derive_eq_ok (op : ArithmeticOp) {left right : UInt32 × UInt32}
    (leftValid : Decimal.Valid (Decimal.values left))
    (rightValid : Decimal.Valid (Decimal.values right)) :
    derive op left right = .ok (Decimal.derive op left right) := by
  have leftIntegral := sub_eq_ok leftValid.scale_le
  have rightIntegral := sub_eq_ok rightValid.scale_le
  cases op with
  | multiply => rfl
  | divide =>
      rw [derive, leftIntegral]
      rfl
  | add | subtract | modulo =>
      rw [derive, leftIntegral, rightIntegral]
      rfl

/-- What is derived has at least as many digits as fractional digits, and so fits a byte once it is
adjusted. -/
theorem adjust_eq_ok {precision scale : UInt32} (scaled : scale.toNat ≤ precision.toNat) :
    adjust precision scale = .ok (Decimal.adjust precision scale) := by
  rw [adjust, Decimal.adjust]
  split
  · next small =>
      have bounded : precision.toNat ≤ 38 := UInt32.le_iff_toNat_le.1 small
      have raised : (max precision 1).toNat ≤ 255 := by
        have one : (1 : UInt32).toNat = 1 := rfl
        rw [UInt32.toNat_max, one]
        omega
      rw [byte_eq_ok raised, byte_eq_ok (by omega : scale.toNat ≤ 255)]
      rfl
  · next large =>
      have kept : (if precision - scale ≤ Decimal.maxDigits then
          Decimal.maxDigits - (precision - scale) else 0).toNat ≤ 38 := by
        split
        · next within =>
            rw [UInt32.toNat_sub_of_le _ _ within]
            exact Nat.sub_le _ _
        · exact Nat.zero_le 38
      have small : (max (if precision - scale ≤ Decimal.maxDigits then
          Decimal.maxDigits - (precision - scale) else 0)
            (min scale Decimal.keptScale)).toNat ≤ 255 := by
        have six : Decimal.keptScale.toNat = 6 := rfl
        rw [UInt32.toNat_max, UInt32.toNat_min, six]
        omega
      rw [sub_eq_ok scaled]
      change (byte Decimal.maxDigits.toNat >>= fun precision => byte _ >>= fun scale =>
        pure (precision, scale)) = _
      rw [byte_eq_ok (by decide), byte_eq_ok small]
      rfl

theorem resultParts_eq_ok (op : ArithmeticOp) {left right : UInt8 × UInt8}
    (leftValid : Decimal.Valid (Decimal.digits left))
    (rightValid : Decimal.Valid (Decimal.digits right)) :
    resultParts op left right = .ok (Decimal.resultParts op left right) := by
  have derivation : derive op (Decimal.words left) (Decimal.words right) = _ :=
    derive_eq_ok op leftValid rightValid
  change (derive op (Decimal.words left) (Decimal.words right) >>= fun parts =>
    adjust parts.1 parts.2) = _
  rw [derivation]
  exact adjust_eq_ok (Decimal.scale_le_derive op leftValid rightValid)

theorem decimalArithmetic_eq (op : ArithmeticOp) (site : CallSite) :
    decimalArithmetic op site = lift (CallPlan.decimalArithmetic op site) := by
  rw [decimalArithmetic.eq_def, CallPlan.decimalArithmetic.eq_def]
  rcases site.operands with _ | ⟨left, _ | ⟨right, _ | ⟨third, rest⟩⟩⟩
  · rfl
  · rfl
  · cases leftIs : site.decimalParts left with
    | error cause => simp only [leftIs]; rfl
    | ok leftParts =>
        cases rightIs : site.decimalParts right with
        | error cause => simp only [leftIs, rightIs]; rfl
        | ok rightParts =>
            have derived := resultParts_eq_ok op (CallSite.valid_of_decimalParts leftIs)
              (CallSite.valid_of_decimalParts rightIs)
            simp only [leftIs, rightIs, lift_ok_bind, ok_bind, derived]
            exact lift_bind
              ((Decimal.resultType op leftParts rightParts).mapError .invalidResultType)
              fun result => .ok (CallPlan.mk (.instruction op.decimalOpcode
                [(Decimal.resultParts op leftParts rightParts).1,
                  (Decimal.resultParts op leftParts rightParts).2]) result)
  · rfl

section First

variable {site : CallSite} {root : TypeRoot} {signature : Signature} {first : Operand}
  {rest : List Operand}

theorem check_operand (given : site.operands = first :: rest) :
    check (operand site 0) = lift (.ok first) := by
  rw [operand, given, List.getElem?_cons_zero]
  rfl

theorem negate_eq (matched : site.signature = root :: signature)
    (given : site.operands = first :: rest) : negate site = lift (CallPlan.negate site) := by
  rw [negate, CallPlan.negate, CallSite.firstRoot_of_cons matched,
    CallSite.firstOperand_of_cons matched given, check_operand given]
  cases chosen : negationOpcode? root with
  | none => simp only [chosen, lift_ok_bind, ok_bind]; rfl
  | some opcode =>
      simp only [chosen, lift_ok_bind, ok_bind]
      by_cases decimal : root = .decimal
      · simp only [if_pos decimal]
        rfl
      · simp only [if_neg decimal]
        rfl

theorem math_eq (function : MathFunction) (matched : site.signature = root :: signature)
    (given : site.operands = first :: rest) :
    math function site = lift (CallPlan.math function site) := by
  cases function with
  | abs =>
      rw [math, CallPlan.math, CallSite.firstRoot_of_cons matched,
        CallSite.firstOperand_of_cons matched given, check_operand given]
      simp only [lift_ok_bind, ok_bind]
      by_cases decimal : root = .decimal
      · rw [if_pos decimal, if_pos decimal]
        rfl
      · rw [if_neg decimal, if_neg decimal]
        by_cases numeric : root.isNumericPrimitive = true
        · rw [if_pos numeric, if_pos numeric]
          rfl
        · rw [if_neg numeric, if_neg numeric]
          rfl
  | _ => rfl

theorem string_eq (function : StringFunction) (matched : site.signature = root :: signature)
    (given : site.operands = first :: rest) :
    string function site = lift (CallPlan.string function site) := by
  cases function with
  | upper | lower =>
      rw [string.eq_def, CallPlan.string.eq_def, CallSite.firstOperand_of_cons matched given]
      simp only [check_operand given]
      rfl
  | charLength | concat => rfl

end First

theorem timePoint_eq (function : ContextFunction) :
    timePoint function = lift (.ok (CallPlan.timePoint function)) := by
  rw [timePoint, TimePoint.type_eq_ok]
  rfl

theorem plan_eq (strategy : Strategy) (site : CallSite) :
    plan strategy site = lift (strategy.plan site) := by
  rw [plan.eq_def, Strategy.plan.eq_def]
  cases checked : strategy.checkArity site with
  | error cause => rfl
  | ok _ =>
      simp only [lift_ok_bind, ok_bind]
      cases strategy with
      | arithmetic op => rfl
      | decimalArithmetic op => exact decimalArithmetic_eq op site
      | negate =>
          obtain ⟨_, _, _, _, matched, given⟩ :=
            Strategy.exists_first_of_checkArity checked (Nat.le_refl 1)
          exact negate_eq matched given
      | comparison op => rfl
      | math function =>
          obtain ⟨_, _, _, _, matched, given⟩ :=
            Strategy.exists_first_of_checkArity checked (by cases function <;> decide)
          exact math_eq function matched given
      | string function =>
          obtain ⟨_, _, _, _, matched, given⟩ :=
            Strategy.exists_first_of_checkArity checked (by cases function <;> decide)
          exact string_eq function matched given
      | timePoint function => exact timePoint_eq function

/-- The arity of the strategy bounds the number of arguments. -/
theorem emit_eq_ok (strategy : Strategy) (site : CallSite) :
    emit strategy site = .ok (strategy.emit site) := by
  rw [emit, plan_eq]
  cases planned : strategy.plan site with
  | error cause =>
      rw [Strategy.emit_of_plan_eq_error planned]
      rfl
  | ok plan =>
      obtain ⟨⟨-, small⟩, -, -⟩ := Strategy.plan_eq_ok planned
      have last : emitFinal site plan.final = .ok (Strategy.emitFinal site plan.final) := by
        cases plan.final with
        | instruction opcode operands => rfl
        | builtin =>
            have fits : site.arity ≤ 255 := Nat.le_trans small (by decide)
            rw [emitFinal, byte_eq_ok fits]
            rfl
      rw [Strategy.emit_of_plan_eq_ok planned, bind_assoc]
      change (emitFinal site plan.final >>= fun last => _) = _
      rw [last]
      rfl

theorem compile_eq_ok (session : Session) (operator : Operator) (operands : List Operand) :
    compile session operator operands = .ok (session.compile operator operands) := by
  rw [compile, Session.compile]
  cases session.resolve operator (operands.map (·.root)) with
  | mk chosen after =>
      cases chosen with
      | none => rfl
      | some resolution =>
          simp only [emit_eq_ok, ok_bind, Session.compileResolved]
          cases resolution.overload.strategy.emit
            ⟨operator, resolution.overload.signature, operands⟩ { pool := after.pool } with
          | ok type state => rfl
          | error cause state => rfl

end Checked

/-- Whatever the overloads are and whatever was compiled before, a call is compiled as it is with
each check in place, so that no check fires: no operand is missing, no subtraction underflows and no
number is too large for its byte.  And a call never fails for a missing conversion or for the type
of its result. -/
theorem Session.compile_checked (context : Context) (history : List (Operator × List Operand))
    (operator : Operator) (operands : List Operand) :
    let session := context.session.compileAll history
    Checked.compile session operator operands = .ok (session.compile operator operands) ∧
      (∀ source target, (session.compile operator operands).1 ≠
        .error (.unsupportedConversion source target)) ∧
        ∀ cause, (session.compile operator operands).1 ≠ .error (.invalidResultType cause) := by
  intro session
  obtain ⟨faithful, -⟩ := (faithful_session context).compileAll history
  have reachable : ∀ cause, (session.compile operator operands).1 = .error cause →
      cause.isReachable = true := by
    intro cause failed
    rw [(faithful.compile_eq operator operands).1] at failed
    exact OverloadTable.isReachable_of_compileAnew (size_le_of_context context history) failed
  refine ⟨Checked.compile_eq_ok session operator operands, ?_, ?_⟩
  · intro source target failed
    have never := reachable _ failed
    contradiction
  · intro cause failed
    have never := reachable _ failed
    contradiction

end OperatorDispatch
