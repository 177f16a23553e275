import OperatorDispatch.Proofs.Call.History
import OperatorDispatch.Proofs.Call.Loading

/-!
# Compiled calls are well formed

The code of a compiled call is read to its last byte.  It loads the operands and carries out the one
last instruction that the strategy stands for.  On the typed machine it runs from the empty stack to
a stack with exactly one value, of the type of the result.
-/

namespace OperatorDispatch

/-! ## Typing of last instructions -/

namespace ArithmeticOp

theorem primitive?_of_opcode? {op : ArithmeticOp} {root : TypeRoot} {opcode : Opcode}
    (chosen : op.opcode? root = some opcode) : opcode.primitive? = some ([root, root], root) := by
  rw [opcode?.eq_def] at chosen
  split at chosen <;> cases chosen <;> rfl

theorem result?_decimalOpcode (op : ArithmeticOp) (precision scale : UInt8)
    (types : List LogicalType) :
    op.decimalOpcode.result? [precision, scale] types =
      Opcode.decimalResult? precision scale types := by
  cases op <;> rfl

theorem inputs_decimalOpcode (op : ArithmeticOp) : op.decimalOpcode.inputs = 2 := by
  cases op <;> rfl

theorem decimalOpcode_ne_pushNull (op : ArithmeticOp) : op.decimalOpcode ≠ .pushNull := by
  cases op <;> nofun

end ArithmeticOp

theorem primitive?_of_negationOpcode? {root : TypeRoot} {opcode : Opcode}
    (chosen : negationOpcode? root = some opcode) (other : root ≠ .decimal) :
    opcode.primitive? = some ([root], root) := by
  rw [negationOpcode?.eq_def] at chosen
  split at chosen <;> cases chosen <;> first | rfl | contradiction

namespace Opcode

theorem widening?_decimal (target : TypeRoot) : widening? .decimal target = none := by
  cases target <;> rfl

theorem ne_decimal_of_widening? {source target : TypeRoot} {opcode : Opcode}
    (converts : widening? source target = some opcode) : target ≠ .decimal := by
  rintro rfl
  cases source <;> contradiction

end Opcode

theorem LogicalType.root_of_decimalParts? {type : LogicalType} {parts : UInt8 × UInt8}
    (known : type.decimalParts? = some parts) : type.root = .decimal := by
  obtain ⟨root, params, nullable, admitted⟩ := type
  cases params with
  | decimal precision scale => cases root <;> first | rfl | contradiction
  | _ => contradiction

namespace Loads

theorem length_eq {operands : List Operand} {signature : Signature} {actions : List Action}
    (loads : Loads operands signature actions) : operands.length = signature.length := by
  induction loads with
  | nil => rfl
  | same rest induction | widened _ _ rest induction =>
      rw [List.length_cons, List.length_cons, induction]

theorem signature_of_decimal {operands : List Operand} {signature : Signature}
    {actions : List Action} (loads : Loads operands signature actions)
    (decimal : ∀ operand ∈ operands, operand.root = .decimal) :
    signature = operands.map (·.root) := by
  induction loads with
  | nil => rfl
  | same rest induction =>
      rw [List.map_cons, ← induction fun operand member => decimal operand (.tail _ member)]
  | widened _ converts _ _ =>
      rw [decimal _ (.head _), Opcode.widening?_decimal] at converts
      contradiction

theorem root_eq_of_decimal {operand : Operand} {operands : List Operand} {target : TypeRoot}
    {signature : Signature} {actions : List Action}
    (loads : Loads (operand :: operands) (target :: signature) actions)
    (decimal : target = .decimal) : operand.root = target := by
  cases loads with
  | same => rfl
  | widened _ converts => exact absurd decimal (Opcode.ne_decimal_of_widening? converts)

end Loads

/-- The types of the operands of a call once they are loaded. -/
def CallSite.fittedTypes (site : CallSite) : List LogicalType :=
  Operand.fittedTypes site.operands site.signature

/-- The last instruction of the plan takes the loaded operands and leaves the result. -/
def CallPlan.Typed (runtime : Runtime) (site : CallSite) (plan : CallPlan) : Prop :=
  TypedMachine.step runtime ⟨[], site.fittedTypes.reverse⟩ (plan.final.action site) =
    some ⟨[], [plan.result.withNullable site.anyNullable]⟩

namespace CallPlan

variable {runtime : Runtime} {site : CallSite} {plan : CallPlan} {actions : List Action}

theorem typed_instruction {opcode : Opcode} {operands : List UInt8} {result : LogicalType}
    (other : opcode ≠ .pushNull) (counted : site.fittedTypes.length = opcode.inputs)
    (typed : opcode.result? operands site.fittedTypes =
      some (result.withNullable site.anyNullable)) :
    Typed runtime site ⟨.instruction opcode operands, result⟩ := by
  have stepped := TypedMachine.step_direct runtime other counted typed [] []
  rw [List.append_nil] at stepped
  exact stepped

theorem typed_primitive (loads : Loads site.operands site.signature actions) {opcode : Opcode}
    {target : TypeRoot} (known : opcode.primitive? = some (site.signature, target)) :
    Typed runtime site ⟨.instruction opcode [], .simple target⟩ := by
  have stepped := TypedMachine.step_primitive runtime known loads.map_root_fittedTypes [] []
  rw [List.append_nil, loads.anyNullable_fittedTypes] at stepped
  exact stepped

theorem typed_arithmetic {op : ArithmeticOp} (loads : Loads site.operands site.signature actions)
    (planned : arithmetic op site = .ok plan) : plan.Typed runtime site := by
  obtain ⟨root, opcode, matched, chosen, rfl⟩ := arithmetic_eq_ok planned
  apply typed_primitive loads
  rw [matched]
  exact ArithmeticOp.primitive?_of_opcode? chosen

theorem typed_decimalArithmetic {op : ArithmeticOp}
    (loads : Loads site.operands site.signature actions)
    (planned : decimalArithmetic op site = .ok plan) : plan.Typed runtime site := by
  obtain ⟨left, right, leftParts, rightParts, result, given, leftIs, rightIs, typed, rfl⟩ :=
    decimalArithmetic_eq_ok planned
  have signature : site.signature = [.decimal, .decimal] := by
    have decimal : ∀ operand ∈ site.operands, operand.root = .decimal := by
      simp [given, Operand.root, LogicalType.root_of_decimalParts? leftIs,
        LogicalType.root_of_decimalParts? rightIs]
    rw [loads.signature_of_decimal decimal, given, List.map_cons, List.map_cons, List.map_nil,
      decimal left (by simp [given]), decimal right (by simp [given])]
  have roots : site.fittedTypes.map (·.root) = [.decimal, .decimal] :=
    loads.map_root_fittedTypes.trans signature
  apply typed_instruction op.decimalOpcode_ne_pushNull
  · rw [op.inputs_decimalOpcode, ← List.length_map, roots]
    rfl
  · have built : LogicalType.decimal (Decimal.resultParts op leftParts rightParts).1
        (Decimal.resultParts op leftParts rightParts).2 = .ok result := typed
    rw [op.result?_decimalOpcode, Opcode.decimalResult?, if_pos roots, built, CallSite.fittedTypes,
      loads.anyNullable_fittedTypes]
    rfl

theorem typed_negate (loads : Loads site.operands site.signature actions)
    (single : site.signature.length ≤ 1) (planned : negate site = .ok plan) :
    plan.Typed runtime site := by
  obtain ⟨root, signature, operand, operands, opcode, headed, given, chosen, rfl⟩ :=
    negate_eq_ok planned
  obtain rfl : signature = [] := by
    rw [headed, List.length_cons] at single
    exact List.length_eq_zero_iff.1 (by omega)
  by_cases decimal : root = .decimal
  · rw [headed, given] at loads
    obtain rfl : operands = [] := by
      have counted := loads.length_eq
      exact List.length_eq_zero_iff.1 (Nat.succ.inj counted)
    have kept : site.fittedTypes = [operand.type] := by
      rw [CallSite.fittedTypes, headed, given, Operand.fittedTypes_cons,
        ← loads.root_eq_of_decimal decimal, Operand.fittedType_root]
      rfl
    subst decimal
    obtain rfl : opcode = .negDec := (Option.some.inj chosen).symm
    have isDecimal : operand.type.root = .decimal := loads.root_eq_of_decimal rfl
    apply typed_instruction (by nofun)
    · rw [kept]
      rfl
    · rw [kept, Opcode.result?_negDec isDecimal, CallSite.anyNullable, given, List.any_cons,
        List.any_nil, Bool.or_false]
      rfl
  · rw [if_neg decimal]
    apply typed_primitive loads
    rw [headed]
    exact primitive?_of_negationOpcode? chosen decimal

theorem typed_comparison {op : ComparisonOp} (loads : Loads site.operands site.signature actions)
    (planned : comparison op site = .ok plan) : plan.Typed runtime site := by
  obtain ⟨root, valueClass, matched, comparable, rfl⟩ := comparison_eq_ok planned
  have roots : site.fittedTypes.map (·.root) = [root, root] :=
    loads.map_root_fittedTypes.trans matched
  apply typed_instruction (by nofun)
  · rw [← List.length_map, roots]
    rfl
  · rw [Opcode.result?_compare comparable roots, CallSite.fittedTypes,
      loads.anyNullable_fittedTypes]
    rfl

theorem typed_timePoint (function : ContextFunction) (empty : site.operands = []) :
    (timePoint function).Typed runtime site := by
  have none : site.fittedTypes = [] := by
    rw [CallSite.fittedTypes, empty]
    rfl
  apply typed_instruction (by nofun)
  · rw [none]
    rfl
  · rw [none, Opcode.result?_timePoint, CallSite.anyNullable, empty]
    cases function.timePoint <;> rfl

theorem typed_builtin (loads : Loads site.operands site.signature actions)
    (small : site.arity ≤ 2) (builtin : plan.final = .builtin)
    (answers : runtime site.operator.identity site.fittedTypes =
      some (plan.result.withNullable site.anyNullable)) : plan.Typed runtime site := by
  have counted : site.fittedTypes.length = site.arity.toUInt8.toNat := by
    rw [CallSite.toNat_toUInt8_arity small, ← List.length_map, CallSite.fittedTypes,
      loads.map_root_fittedTypes]
    exact loads.length_eq.symm
  have reduced :=
    TypedMachine.reduce_append (runtime site.operator.identity) counted [] []
  rw [List.append_nil, answers] at reduced
  rw [Typed, builtin]
  exact reduced

end CallPlan

/-- Whether calls of the strategy end in a call of the runtime. -/
def Strategy.callsRuntime : Strategy → Bool
  | .math _ | .string _ => true
  | _ => false

/-- Whatever the strategy, the last instruction takes the loaded operands and leaves the result. -/
theorem Strategy.typed_plan {runtime : Runtime} {strategy : Strategy} {site : CallSite}
    {plan : CallPlan} {actions : List Action} (planned : strategy.plan site = .ok plan)
    (loads : Loads site.operands site.signature actions)
    (answers : strategy.callsRuntime = true →
      runtime site.operator.identity site.fittedTypes =
        some (plan.result.withNullable site.anyNullable)) : plan.Typed runtime site := by
  obtain ⟨⟨matched, small⟩, -, -⟩ := plan_eq_ok planned
  obtain ⟨_, checked, planned⟩ := bind_eq_ok.1 planned
  obtain ⟨⟨-, atMost⟩, -⟩ := checkArity_eq_ok.1 checked
  cases strategy with
  | arithmetic op => exact CallPlan.typed_arithmetic loads planned
  | decimalArithmetic op => exact CallPlan.typed_decimalArithmetic loads planned
  | negate => exact CallPlan.typed_negate loads (Nat.le_trans (Nat.le_of_eq matched) atMost) planned
  | comparison op => exact CallPlan.typed_comparison loads planned
  | math function =>
      exact CallPlan.typed_builtin loads small (CallPlan.final_of_math planned) (answers rfl)
  | string function =>
      exact CallPlan.typed_builtin loads small (CallPlan.final_of_string planned) (answers rfl)
  | timePoint function =>
      cases planned
      exact CallPlan.typed_timePoint function (List.length_eq_zero_iff.1 (Nat.le_zero.1 atMost))

/-! ## The whole call -/

theorem Strategy.meaning_eq_ok {strategy : Strategy} {site : CallSite} {type : LogicalType}
    {actions : List Action} (means : strategy.meaning site = .ok (type, actions)) :
    ∃ plan loads, strategy.plan site = .ok plan ∧
      Operand.loaded site.operands site.signature = .ok loads ∧
        type = plan.result.withNullable site.anyNullable ∧
          actions = loads ++ [plan.final.action site] := by
  obtain ⟨plan, planned, means⟩ := bind_eq_ok.1 means
  obtain ⟨loads, loaded, means⟩ := bind_eq_ok.1 means
  obtain ⟨typeIs, actionsAre⟩ := Prod.mk.inj (Except.ok.inj means)
  exact ⟨plan, loads, planned, loaded, typeIs.symm, actionsAre.symm⟩

/-- The code of the call is read to its last byte.  Its instructions load the operands for the
signature of the overload and end with the one of the strategy.  If the runtime gives the type of
the result where it is called, they run on the typed machine from the empty stack and leave a value
of the type of the result and nothing else. -/
structure CompiledCall.WellFormed (call : CompiledCall) (pool : ConstantPool) (operator : Operator)
    (operands : List Operand) (overload : Overload Strategy) : Prop where
  decoded : call.code.decodedSize = call.code.size
  shaped : ∃ loads final, Loads operands overload.signature loads ∧
    FinalAction operator overload.signature operands.length call.resultType overload.strategy
      final ∧
    call.code.actions? pool = some (loads ++ [final])
  typed : ∀ runtime : Runtime,
    (overload.strategy.callsRuntime = true →
      runtime operator.identity (Operand.fittedTypes operands overload.signature) =
        some call.resultType) →
    ((call.code.actions? pool).bind fun actions =>
      TypedMachine.run runtime ⟨operands.map (·.type), []⟩ actions) =
        some ⟨[], [call.resultType]⟩

theorem CompiledCall.wellFormed_of_meaning {call : CompiledCall} {pool : ConstantPool}
    {operator : Operator} {operands : List Operand} {overload : Overload Strategy}
    {actions : List Action} (accepted : overload.signature.accepts (operands.map (·.root)) = true)
    (means : overload.strategy.meaning ⟨operator, overload.signature, operands⟩ =
      .ok (call.resultType, actions))
    (decoded : call.code.decodedSize = call.code.size)
    (acts : call.code.actions? pool = some actions) :
    call.WellFormed pool operator operands overload := by
  obtain ⟨plan, loadActions, planned, loaded, typeIs, rfl⟩ := Strategy.meaning_eq_ok means
  have loads : Loads operands overload.signature loadActions := loads_of_loaded accepted loaded
  obtain ⟨-, -, final⟩ := Strategy.plan_eq_ok planned
  refine ⟨decoded, ⟨loadActions, _, loads, ?_, acts⟩, ?_⟩
  · rw [typeIs]
    exact final _
  · intro runtime answers
    have pushed := TypedMachine.run_loads runtime loads [] []
    have reduced : plan.Typed runtime ⟨operator, overload.signature, operands⟩ :=
      Strategy.typed_plan planned loads fun calls => (answers calls).trans (by rw [typeIs])
    rw [CallPlan.Typed, CallSite.fittedTypes] at reduced
    rw [List.append_nil, List.append_nil] at pushed
    rw [acts, Option.bind_some, TypedMachine.run_append, pushed, Option.bind_some,
      TypedMachine.run_cons, reduced, typeIs]
    rfl

/-- Every call that is compiled, after any history and against any table, is well formed for the
overload that the table chooses. -/
theorem Session.wellFormed_of_compile (context : Context)
    (history : List (Operator × List Operand)) (operator : Operator) (operands : List Operand)
    (call : CompiledCall) (after : Session)
    (compiled : (context.session.compileAll history).compile operator operands =
      (.ok call, after)) :
    ∃ resolution, context.table.resolve operator (operands.map (·.root)) = some resolution ∧
      call.kind = resolution.kind ∧
        call.WellFormed after.pool operator operands resolution.overload := by
  obtain ⟨kept, sameTable⟩ := (faithful_session context).compileAll history
  have ended := kept.compileOutcome operator operands
  rw [compiled, sameTable] at ended
  cases ended with
  | compiled _ _ actions means decoded acts =>
      rw [Session.meaning] at means
      cases chosen : context.table.resolve operator (operands.map (·.root)) with
      | none =>
          have unmatched : context.session.table.resolve operator (operands.map (·.root)) = none :=
            chosen
          rw [unmatched] at means
          contradiction
      | some resolution =>
          have matched : context.session.table.resolve operator (operands.map (·.root)) =
              some resolution := chosen
          rw [matched] at means
          obtain ⟨⟨type, callActions⟩, meant, same⟩ := bind_eq_ok.1 means
          obtain ⟨kind, rest⟩ := Prod.mk.inj (Except.ok.inj same)
          have scanned := (context.table.resolve_eq_scan _ _).symm.trans chosen
          obtain ⟨-, -, accepted⟩ := OverloadTable.accepts_of_scan scanned
          refine ⟨resolution, rfl, kind.symm, ?_⟩
          refine CompiledCall.wellFormed_of_meaning accepted ?_ decoded acts
          rw [meant, rest]

/-- The sum of an `INTEGER` and a `BIGINT` literal widens the first operand. -/
theorem Session.wellFormed_of_compile_sum :
    let plus : Operator := ⟨7, "PLUS", .function⟩
    let sum : Overload Strategy :=
      { operator := plus, signature := [.bigInt, .bigInt], strategy := .arithmetic .add }
    let context : Context :=
      { settings := {}, table := { overloads := [sum], mode := .streaming } }
    let operands : List Operand :=
      [.ofSlot 3 (.simple .integer), .ofLiteral (.int 5) (.simple .bigInt)]
    ∃ call after, (context.session.compileAll []).compile plus operands = (.ok call, after) ∧
      call.kind = .approximate ∧ call.resultType = .simple .bigInt ∧
        call.WellFormed after.pool plus operands sum := by
  intro plus sum context operands
  have resolved : context.table.resolve plus [.integer, .bigInt] = some ⟨sum, .approximate⟩ :=
    (context.table.resolve_eq_scan plus [.integer, .bigInt]).trans rfl
  have means : meaning context.table plus operands =
      .ok (.approximate, .simple .bigInt, [.load 3, .direct .i32ToI64 [], .push (.int 5),
        .direct .addI64 []]) := by
    have called : context.table.resolve plus (operands.map (·.root)) =
        some ⟨sum, .approximate⟩ := resolved
    rw [meaning, called]
    rfl
  obtain ⟨call, after, compiled, kind, type⟩ :=
    (faithful_session context).compile_eq_ok means (by decide)
  obtain ⟨resolution, chosen, -, wellFormed⟩ :=
    wellFormed_of_compile context [] plus operands call after compiled
  obtain rfl : ⟨sum, .approximate⟩ = resolution := Option.some.inj (resolved.symm.trans chosen)
  exact ⟨call, after, compiled, kind, type, wellFormed⟩

end OperatorDispatch
