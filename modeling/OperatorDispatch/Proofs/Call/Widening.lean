import OperatorDispatch.Proofs.Call.Casting
import OperatorDispatch.Proofs.Call.Standard
import OperatorDispatch.Proofs.Overload.Narrowing

/-!
# Widening is casting

A call that widens operands is compiled like the call in which these operands are cast.  Steps of
the two emissions are compared one by one: from states that differ in conversions only they lead to
such states, and only the first emission writes conversions.  The call with its casts is matched
exactly, on the same overload, and leaves the same constants.
-/

namespace OperatorDispatch

/-! ## Emission -/

/-- The states have the same pool, and the code of the second is that of the first, less the
conversions. -/
structure EmissionState.Strips (full stripped : EmissionState) : Prop where
  pool_eq : full.pool = stripped.pool
  written : ∃ instructions, full.code.bytes = Instruction.encodeAll instructions ∧
    stripped.code.bytes = Instruction.encodeAll (Instruction.unconverted instructions)

theorem EmissionState.Strips.code_eq {full stripped : EmissionState}
    (strips : full.Strips stripped) : stripped.code = full.code.withoutConversions := by
  obtain ⟨instructions, written, strippedWritten⟩ := strips.written
  rw [Bytecode.withoutConversions_eq written, ← strippedWritten]

namespace Emission

open Instruction

/-- Whatever the first step writes, the second writes from a state without the conversions, and it
writes no conversions. -/
def Strips (step stripped : Emission Unit) : Prop :=
  ∀ before bare after, before.Strips bare → step before = .ok () after →
    ∃ bareAfter, stripped bare = .ok () bareAfter ∧ after.Strips bareAfter

theorem strips_pure : Strips (pure ()) (pure ()) := by
  intro before bare after strips ended
  cases ended
  exact ⟨bare, rfl, strips⟩

theorem strips_throw (cause : CallError) (stripped : Emission Unit) :
    Strips (throw cause) stripped := by
  intro before bare after strips ended
  cases ended

theorem Strips.bind {first second strippedFirst strippedSecond : Emission Unit}
    (firstStrips : Strips first strippedFirst) (secondStrips : Strips second strippedSecond) :
    Strips (first >>= fun _ => second) (strippedFirst >>= fun _ => strippedSecond) := by
  intro before bare after strips ended
  cases middle : first before with
  | error cause state =>
      rw [bind_of_eq_error middle] at ended
      cases ended
  | ok _ state =>
      rw [bind_of_eq_ok middle] at ended
      obtain ⟨bareMiddle, firstEnded, middleStrips⟩ := firstStrips before bare state strips middle
      obtain ⟨bareAfter, secondEnded, afterStrips⟩ :=
        secondStrips state bareMiddle after middleStrips ended
      exact ⟨bareAfter, (bind_of_eq_ok firstEnded).trans secondEnded, afterStrips⟩

/-! ### Single steps -/

/-- The instructions that are written, and those that are left of them. -/
theorem strips_append {before bare : EmissionState} (strips : before.Strips bare)
    (instruction : Instruction) (rest : List UInt8)
    (left : rest = encodeAll (unconverted [instruction])) :
    EmissionState.Strips { before with code := before.code.append instruction.encode }
      { bare with code := bare.code.append rest } := by
  obtain ⟨pool, instructions, written, bareWritten⟩ := strips
  refine ⟨pool, instructions ++ [instruction], ?_, ?_⟩
  · rw [encodeAll_append, ← written, encodeAll_singleton]
    rfl
  · rw [unconverted, List.filter_append, ← unconverted, ← unconverted, encodeAll_append,
      ← bareWritten, ← left]
    rfl

theorem strips_instruction {opcode : Opcode} {operands : List UInt8}
    (sized : operands.length = opcode.operandSize) (other : opcode.isConversion = false) :
    Strips (instruction opcode operands) (instruction opcode operands) := by
  intro before bare after strips ended
  let written : Instruction := ⟨opcode, operands, sized⟩
  have stays : unconverted [written] = [written] := List.filter_cons_of_pos (by simpa using other)
  have appended := strips_append strips written written.encode <| by
    rw [stays, encodeAll_singleton]
  cases ended
  exact ⟨_, rfl, appended⟩

theorem strips_conversion {source target : TypeRoot} {opcode : Opcode}
    (converts : Opcode.widening? source target = some opcode) :
    Strips (instruction opcode []) (pure ()) := by
  intro before bare after strips ended
  have sized : ([] : List UInt8).length = opcode.operandSize :=
    (Opcode.isDirect_of_widening? converts).2.symm
  let written : Instruction := ⟨opcode, [], sized⟩
  have goes : unconverted [written] = [] :=
    List.filter_cons_of_neg (by simpa using Opcode.isConversion_of_widening? converts)
  have appended := strips_append strips written [] (by rw [goes]; rfl)
  have nothing : bare.code.append [] = bare.code := congrArg Bytecode.mk (List.append_nil _)
  rw [nothing] at appended
  cases ended
  exact ⟨bare, rfl, appended⟩

theorem strips_position_bind (value : Constant) {next : UInt16 → Emission Unit}
    (writes : ∀ position, Strips (next position) (next position)) :
    Strips (position value >>= next) (position value >>= next) := by
  intro before bare after strips ended
  obtain ⟨samePool, written⟩ := strips
  change EStateM.bind (position value) next before = _ at ended
  change ∃ bareAfter, EStateM.bind (position value) next bare = _ ∧ _
  rw [EStateM.bind, position] at ended ⊢
  rw [← samePool]
  cases interned : before.pool.intern? value with
  | none =>
      rw [interned] at ended
      cases ended
  | some result =>
      obtain ⟨index, pool⟩ := result
      rw [interned] at ended
      exact writes index { before with pool } { bare with pool } after ⟨rfl, written⟩ ended

theorem strips_constant (value : Constant) : Strips (constant value) (constant value) := by
  apply strips_position_bind
  intro index
  split
  · exact strips_instruction rfl rfl
  · exact strips_instruction rfl rfl

theorem strips_builtin (operator : Operator) (arguments : UInt8) :
    Strips (builtin operator arguments) (builtin operator arguments) :=
  strips_position_bind _ fun _ => strips_instruction rfl rfl

theorem strips_operand (value : Operand) : Strips (operand value) (operand value) := by
  rw [operand]
  cases value.source with
  | slot number =>
      simp only [slot]
      split
      · exact strips_instruction rfl rfl
      · exact strips_throw _ _
  | literal value =>
      cases value with
      | int value => exact strips_constant (.int value)
      | double bits => exact strips_constant (.double bits)
      | string text => exact strips_constant (.string text)
      | null => exact strips_instruction rfl rfl

theorem fit_self (target : TypeRoot) : fit target (some target) = pure () := by
  rw [fit, widen, if_pos rfl, ite_self]

theorem strips_fit (source target : TypeRoot) :
    Strips (fit source (some target)) (fit target (some target)) := by
  rw [fit_self, fit, widen]
  split
  · split
    · exact strips_pure
    · cases converts : Opcode.widening? source target with
      | none => exact strips_throw _ _
      | some opcode => exact strips_conversion converts
  · exact strips_pure

theorem strips_operands {values : List Operand} {signature : Signature} {actions : List Action}
    (loads : Loads values signature actions) :
    Strips (operands values signature) (operands (Operand.casts values signature) signature) := by
  induction loads with
  | nil => exact strips_pure
  | @same value values signature actions rest induction =>
      rw [Operand.casts_cons, operands_cons, operands_cons, Operand.root_cast]
      exact (strips_operand value).bind ((strips_fit value.root value.root).bind induction)
  | @widened value values target signature opcode actions differs converts rest induction =>
      rw [Operand.casts_cons, operands_cons, operands_cons, Operand.root_cast]
      exact (strips_operand value).bind ((strips_fit value.root target).bind induction)

theorem bind_pure_eq_ok {step : Emission Unit} {type result : LogicalType}
    {before after : EmissionState} :
    (step >>= fun _ => pure type) before = .ok result after ↔
      step before = .ok () after ∧ type = result := by
  cases ran : step before with
  | ok _ state =>
      rw [bind_of_eq_ok ran]
      simp [pure, EStateM.pure, and_comm]
  | error cause state =>
      rw [bind_of_eq_error ran]
      simp

end Emission

theorem FinalAction.not_isConversion {operator : Operator} {signature : Signature}
    {arguments : Nat} {result : LogicalType} {strategy : Strategy} {opcode : Opcode}
    {operands : List UInt8}
    (final : FinalAction operator signature arguments result strategy (.direct opcode operands)) :
    opcode.isConversion = false := by
  cases final with
  | arithmetic matched chosen =>
      rw [ArithmeticOp.opcode?.eq_def] at chosen
      split at chosen <;> cases chosen <;> rfl
  | @decimalArithmetic op => cases op <;> rfl
  | negate matched chosen =>
      rw [negationOpcode?.eq_def] at chosen
      split at chosen <;> cases chosen <;> rfl
  | comparison => rfl
  | timePoint => rfl

namespace Strategy

variable {strategy : Strategy} {site : CallSite} {plan : CallPlan} {actions : List Action}

theorem strips_emitFinal (loads : Loads site.operands site.signature actions)
    (planned : strategy.plan site = .ok plan) :
    Emission.Strips (emitFinal site plan.final) (emitFinal site.casting plan.final) := by
  obtain ⟨-, complete, final⟩ := plan_eq_ok planned
  have last := final true
  cases kind : plan.final with
  | instruction opcode operands =>
      rw [kind] at complete last
      exact Emission.strips_instruction complete.2 last.not_isConversion
  | builtin =>
      have sameArity : site.casting.arity = site.arity := loads.length_casts
      rw [emitFinal, emitFinal, sameArity]
      exact Emission.strips_builtin site.operator site.arity.toUInt8

/-- The call with its casts is compiled like the call without them, to the same code without the
conversions. -/
theorem emit_casting {pool : ConstantPool} {type : LogicalType} {state : EmissionState}
    (accepted : site.signature.accepts (site.operands.map (·.root)) = true)
    (ignores : strategy.ignoresCasts site.signature = true)
    (emitted : strategy.emit site { pool } = .ok type state) :
    site.casting.operands.map (·.root) = site.signature ∧
      ∃ stripped, strategy.emit site.casting { pool } = .ok type stripped ∧
        state.Strips stripped := by
  have ended := strategy.callOutcome_emit site pool
  rw [emitted] at ended
  cases ended with
  | compiled _ _ _ actions means =>
      obtain ⟨plan, loadActions, planned, loaded, -, -⟩ := meaning_eq_ok means
      have loads := loads_of_loaded accepted loaded
      have steps := (Emission.strips_operands loads).bind (strips_emitFinal loads planned)
      have sameNullable : site.casting.anyNullable = site.anyNullable := loads.any_nullable_casts
      have start : EmissionState.Strips { pool } { pool } := ⟨rfl, [], rfl, rfl⟩
      rw [emit_of_plan_eq_ok planned, Emission.bind_pure_eq_ok] at emitted
      obtain ⟨written, typeIs⟩ := emitted
      obtain ⟨stripped, strippedWritten, strips⟩ := steps _ _ _ start written
      refine ⟨loads.map_root_casts, stripped, ?_, strips⟩
      rw [emit_of_plan_eq_ok (plan_casting loads ignores planned), sameNullable,
        Emission.bind_pure_eq_ok]
      exact ⟨strippedWritten, typeIs⟩

end Strategy

/-! ## Compiled calls -/

namespace OverloadTable

variable {table : OverloadTable Strategy} {operator : Operator} {operands : List Operand}
  {resolution : Resolution Strategy}

theorem compileAnew_casts (distinct : (Registration.keys table.overloads).Nodup)
    (ignores : ∀ overload ∈ table.overloads,
      overload.strategy.ignoresCasts overload.signature = true)
    {pool : ConstantPool} {call : CompiledCall}
    (compiled : (table.compileAnew pool operator operands).1 = .ok call) :
    ∃ resolution, table.resolve operator (operands.map (·.root)) = some resolution ∧
      resolution.kind = call.kind ∧
      let casts := Operand.casts operands resolution.overload.signature
      table.resolve operator (casts.map (·.root)) = some ⟨resolution.overload, .exact⟩ ∧
        table.compileAnew pool operator casts =
          (.ok ⟨call.code.withoutConversions, call.resultType, .exact⟩,
            (table.compileAnew pool operator operands).2) := by
  obtain ⟨resolution, state, chosen, emitted, call_eq, after⟩ :=
    exists_emit_of_compileAnew_ok compiled
  obtain ⟨member, accepted⟩ := accepts_of_resolve chosen
  obtain ⟨roots, stripped, castEmitted, strips⟩ :=
    Strategy.emit_casting accepted (ignores _ member) emitted
  have matched : table.resolve operator ((Operand.casts operands
      resolution.overload.signature).map (·.root)) = some ⟨resolution.overload, .exact⟩ :=
    (congrArg (table.resolve operator) roots).trans (resolve_signature distinct chosen)
  refine ⟨resolution, chosen, ?_, matched, ?_⟩
  · rw [call_eq]
  · rw [compileAnew_of_ok matched castEmitted, after, strips.code_eq, strips.pool_eq, call_eq]

end OverloadTable

/-- In the standard catalog, what derives the type of a result from all operands takes no number
that could be widened. -/
theorem Strategy.ignoresCasts_registrations (mode : ExecutionMode) :
    ∀ overload ∈ standardCatalog.registrations mode,
      overload.strategy.ignoresCasts overload.signature = true :=
  Catalog.forall_mem_registrations (by decide +kernel) fun _ _ => rfl

namespace Session

/-- In every session over the standard catalog, a call that widens operands has the same outcome as
the call in which these operands are cast.  The latter is matched exactly, on the same overload; the
type of the result and the pool are the same, and the code is the same without the conversions. -/
theorem compile_casts {settings : Settings} {context : Context} {journal : Array Event}
    (built : Context.standard settings = (.ok context, journal))
    (history : List (Operator × List Operand)) {operator : Operator} {operands : List Operand}
    {call : CompiledCall} {after : Session}
    (compiled : (context.session.compileAll history).compile operator operands =
      (.ok call, after))
    (widened : call.kind = .approximate) :
    ∃ overload,
      context.table.resolve operator (operands.map (·.root)) = some ⟨overload, .approximate⟩ ∧
      let casts := Operand.casts operands overload.signature
      context.table.resolve operator (casts.map (·.root)) = some ⟨overload, .exact⟩ ∧
        ∃ castCall castAfter,
          (context.session.compileAll history).compile operator casts =
            (.ok castCall, castAfter) ∧
          castCall.kind = .exact ∧ castCall.resultType = call.resultType ∧
          castAfter.pool = after.pool ∧ castCall.code = call.code.withoutConversions := by
  obtain ⟨faithful, sameTable⟩ := (faithful_session context).compileAll history
  have overloads := Context.overloads_of_standard built
  have distinct : (Registration.keys context.table.overloads).Nodup := by
    rw [overloads]
    exact Context.nodup_keys_standardCatalog settings.mode
  obtain ⟨outcome, pool⟩ := faithful.compile_eq operator operands
  rw [compiled, sameTable] at outcome pool
  obtain ⟨resolution, chosen, kind, matched, casted⟩ := OverloadTable.compileAnew_casts distinct
    (overloads ▸ Strategy.ignoresCasts_registrations settings.mode) outcome.symm
  obtain ⟨overload, resolved⟩ := resolution
  obtain rfl : resolved = .approximate := kind.trans widened
  refine ⟨overload, chosen, matched, ?_⟩
  obtain ⟨castOutcome, castPool⟩ :=
    faithful.compile_eq operator (Operand.casts operands overload.signature)
  rw [sameTable] at castOutcome castPool
  have compiledExact := castOutcome.trans (congrArg Prod.fst casted)
  have samePool := castPool.trans ((congrArg Prod.snd casted).trans pool.symm)
  exact ⟨_, _, Prod.ext compiledExact rfl, rfl, rfl, samePool, rfl⟩

/-- The bytes of the sum of an `INTEGER` in slot 3 and a `BIGINT`, which is the first constant. -/
theorem emit_sum {pool : ConstantPool} (absent : pool.find? (.int 5) = none)
    (empty : pool.size = 0) :
    let operands : List Operand :=
      [.ofSlot 3 (LogicalType.simple .integer).notNull, .ofLiteral (.int 5) (.simple .bigInt)]
    ∃ after, (Strategy.arithmetic .add).emit ⟨.plus, [.bigInt, .bigInt], operands⟩ { pool } =
      .ok (.simple .bigInt)
        { pool := after, code := ⟨[Opcode.loadOperand.code, 3, Opcode.i32ToI64.code,
            Opcode.constant.code, 0, Opcode.addI64.code]⟩ } := by
  intro operands
  have placed (code : Bytecode) : Emission.position (.int 5) { code, pool } =
      .ok 0 { code, pool := pool.push (.int 5) absent } := by
    rw [Emission.position, ConstantPool.intern?_of_find?_eq_none absent, empty]
    rfl
  have literal (code : Bytecode) : Emission.literal (.int 5) { code, pool } =
      .ok () { code := code.appendInstruction .constant [0], pool := pool.push (.int 5) absent } :=
    (Emission.bind_of_eq_ok (placed code)).trans rfl
  have pushed : Emission.operands operands [.bigInt, .bigInt] { pool } =
      .ok ()
        { pool := pool.push (.int 5) absent
          code := ⟨[Opcode.loadOperand.code, 3, Opcode.i32ToI64.code, Opcode.constant.code, 0]⟩ } :=
    (Emission.bind_of_eq_ok
      (literal ⟨[Opcode.loadOperand.code, 3, Opcode.i32ToI64.code]⟩)).trans rfl
  have planned : (Strategy.arithmetic .add).plan ⟨.plus, [.bigInt, .bigInt], operands⟩ =
      .ok ⟨.instruction .addI64 [], .simple .bigInt⟩ := rfl
  refine ⟨pool.push (.int 5) absent, ?_⟩
  rw [Strategy.emit_of_plan_eq_ok planned, bind_assoc]
  exact (Emission.bind_of_eq_ok pushed).trans rfl

/-- The sum of an `INTEGER` and a `BIGINT` is the sum in which the first operand is cast: the one
conversion in its code is left out. -/
theorem compile_casts_sum :
    let operands : List Operand :=
      [.ofSlot 3 (LogicalType.simple .integer).notNull, .ofLiteral (.int 5) (.simple .bigInt)]
    let casts : List Operand :=
      [.ofSlot 3 (LogicalType.simple .bigInt).notNull, .ofLiteral (.int 5) (.simple .bigInt)]
    ∃ context journal call after castCall castAfter,
      Context.standard {} = (.ok context, journal) ∧
        (context.session.compileAll []).compile .plus operands = (.ok call, after) ∧
        call.kind = .approximate ∧ call.resultType = .simple .bigInt ∧
        call.code.bytes = [Opcode.loadOperand.code, 3, Opcode.i32ToI64.code,
          Opcode.constant.code, 0, Opcode.addI64.code] ∧
        (context.session.compileAll []).compile .plus casts = (.ok castCall, castAfter) ∧
        castCall.kind = .exact ∧ castCall.resultType = .simple .bigInt ∧
        castAfter.pool = after.pool ∧ castCall.code = call.code.withoutConversions ∧
        castCall.code.bytes = [Opcode.loadOperand.code, 3, Opcode.constant.code, 0,
          Opcode.addI64.code] := by
  intro operands casts
  obtain ⟨context, journal, built, overloads⟩ := Context.exists_standard {}
  have scanned : (context.table.resolve .plus (operands.map (·.root))).map (fun resolution =>
      (resolution.overload.strategy, resolution.overload.signature, resolution.kind)) =
        some (.arithmetic .add, [.bigInt, .bigInt], .approximate) := by
    rw [OverloadTable.resolve_eq_scan, overloads]
    decide +kernel
  obtain ⟨resolution, chosen, parts⟩ := Option.map_eq_some_iff.1 scanned
  obtain ⟨⟨heading, strategy⟩, kind⟩ := resolution
  obtain ⟨rfl, rest⟩ := Prod.mk.inj parts
  obtain ⟨signature, rfl⟩ := Prod.mk.inj rest
  obtain ⟨operator, _⟩ := heading
  cases signature
  have absent : (context.session.compileAll []).pool.find? (.int 5) = none :=
    Std.HashMap.getElem?_empty
  obtain ⟨pool, emitted⟩ := emit_sum absent rfl
  obtain ⟨outcome, -⟩ := (faithful_session context).compile_eq .plus operands
  have compiled : ((context.session.compileAll []).compile .plus operands).1 =
      .ok ⟨⟨_⟩, .simple .bigInt, .approximate⟩ :=
    outcome.trans (congrArg Prod.fst (OverloadTable.compileAnew_of_ok chosen emitted))
  obtain ⟨overload, again, -, castCall, castAfter, castCompiled, castKind, same, castPool, code⟩ :=
    compile_casts built [] (Prod.ext compiled rfl) rfl
  cases again.symm.trans chosen
  exact ⟨context, journal, _, _, castCall, castAfter, built, Prod.ext compiled rfl, rfl, rfl, rfl,
    castCompiled, castKind, same, castPool, code, by rw [code]; decide +kernel⟩

end Session
end OperatorDispatch
