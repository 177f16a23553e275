import OperatorDispatch.Proofs.Call.Accounting

/-!
# Code stays valid

Code names constants by their positions, and the pool goes on to change after the code is handed
out: it grows with each call that is compiled and loses again what a call that fails has added.
A position that code names is neither given back nor reused, so at any later moment the code denotes
the literals and the operator that it was compiled for.
-/

namespace OperatorDispatch

/-! ## Constants that code denotes -/

namespace Bytecode

/-- The position that the instruction at an offset names, if it names a constant at all.  The inner
option is empty if the code ends before the position does. -/
def positionAt? (code : Bytecode) (offset : Nat) : Opcode → Option (Option Nat)
  | .constant => some ((code.byte? (offset + 1)).map (·.toNat))
  | .constantWide | .callBuiltin => some ((code.word? (offset + 1)).map (·.toNat))
  | _ => none

/-- What an instruction at an offset denotes, if it names a constant at all.  The inner option is
empty if nothing stands at the position. -/
def denotedAt? (pool : ConstantPool) (code : Bytecode) (offset : Nat) (opcode : Opcode) :
    Option (Option Constant) :=
  (code.positionAt? offset opcode).map (·.bind pool.get?)

/-- What the instructions that name constants denote, in order. -/
def denoted (pool : ConstantPool) (code : Bytecode) : List (Option Constant) :=
  code.instructions.filterMap fun (offset, opcode) => code.denotedAt? pool offset opcode

end Bytecode

/-- The constant that an action takes from the pool. -/
def Action.constant? : Action → Option Constant
  | .push constant => some constant
  | .call identity _ => some (.operator identity)
  | .load _ | .direct _ _ => none

namespace Bytecode

variable {pool : ConstantPool} {code : Bytecode} {offset : Nat} {opcode : Opcode}

theorem byte?_of_operandsAt {bytes : List UInt8} (read : code.operandsAt offset opcode = bytes)
    (position : Nat) {byte : UInt8} (stands : bytes[position]? = some byte) :
    code.byte? (offset + 1 + position) = some byte := by
  rw [← read, operandsAt, List.getElem?_take] at stands
  split at stands
  · rw [byte?, ← List.getElem?_drop]
    exact stands
  · contradiction

theorem word?_of_operandsAt {high low : UInt8} {rest : List UInt8}
    (read : code.operandsAt offset opcode = high :: low :: rest) :
    code.word? (offset + 1) = some (ofBigEndian high low) := by
  have first : code.byte? (offset + 1) = some high := byte?_of_operandsAt read 0 rfl
  have second : code.byte? (offset + 1 + 1) = some low := byte?_of_operandsAt read 1 rfl
  rw [word?, first, second]

theorem denotedAt?_of_action {action : Action}
    (acts : Action.ofInstruction? pool opcode (code.operandsAt offset opcode) = some action) :
    code.denotedAt? pool offset opcode = action.constant?.map some := by
  generalize read : code.operandsAt offset opcode = bytes at acts
  rw [Action.ofInstruction?.eq_def] at acts
  rw [denotedAt?, positionAt?.eq_def]
  split at acts
  · cases acts
    rfl
  · next index =>
      obtain ⟨constant, held, rfl⟩ := Option.map_eq_some_iff.1 acts
      have named : code.byte? (offset + 1) = some index := byte?_of_operandsAt read 0 rfl
      simp [named, held, Action.constant?]
  · next high low =>
      obtain ⟨constant, held, rfl⟩ := Option.map_eq_some_iff.1 acts
      simp [word?_of_operandsAt read, held, Action.constant?]
  · split at acts
    · next identity held =>
        cases acts
        simp [word?_of_operandsAt read, held, Action.constant?]
    · contradiction
  · next notNarrow notWide notCall =>
      split at acts
      · next sized =>
          cases acts
          -- The three opcodes that name a constant were read above with as many bytes.
          cases opcode with
          | constant =>
              obtain ⟨index, rfl⟩ := List.length_eq_one_iff.1 sized
              exact absurd rfl (notNarrow index rfl)
          | constantWide =>
              obtain ⟨high, low, rfl⟩ := List.length_eq_two.1 sized
              exact absurd rfl (notWide high low rfl)
          | callBuiltin =>
              obtain ⟨high, low, arguments, rfl⟩ := List.length_eq_three.1 sized
              exact absurd rfl (notCall high low arguments rfl)
          | _ => rfl
      · contradiction

theorem denoted_of_actions? {actions : List Action} (acts : code.actions? pool = some actions) :
    code.denoted pool = (actions.filterMap Action.constant?).map some := by
  rw [actions?] at acts
  rw [denoted]
  generalize code.instructions = instructions at acts ⊢
  induction instructions generalizing actions with
  | nil =>
      cases acts
      rfl
  | cons instruction instructions induction =>
      obtain ⟨offset, opcode⟩ := instruction
      simp only [List.mapM_cons, Option.bind_eq_bind, Option.pure_def, Option.bind_eq_some_iff,
        Option.some.injEq] at acts
      obtain ⟨action, first, rest, others, rfl⟩ := acts
      simp only [List.filterMap_cons, denotedAt?_of_action first, induction others]
      cases action.constant? <;> rfl

end Bytecode

/-! ## Constants that a call asks for -/

theorem Operand.constant?_action (operand : Operand) :
    operand.action.constant? = operand.demand?.bind Demand.constant? := by
  rw [action, demand?]
  cases operand.source with
  | slot number => rfl
  | literal value => cases value <;> rfl

theorem Loads.filterMap_constant? {operands : List Operand} {signature : Signature}
    {actions : List Action} (loads : Loads operands signature actions) :
    actions.filterMap Action.constant? =
      (operands.filterMap Operand.demand?).filterMap Demand.constant? := by
  rw [List.filterMap_filterMap]
  induction loads with
  | nil => rfl
  | @same operand operands signature actions rest induction =>
      rw [List.filterMap_cons, List.filterMap_cons, operand.constant?_action, induction]
  | @widened operand operands target signature opcode actions differs converts rest induction =>
      have conversion : (Action.direct opcode []).constant? = none := rfl
      rw [List.filterMap_cons, List.filterMap_cons_none conversion, List.filterMap_cons,
        operand.constant?_action, induction]

theorem FinalAction.constant?_eq {operator : Operator} {signature : Signature} {arguments : Nat}
    {result : LogicalType} {strategy : Strategy} {action : Action}
    (final : FinalAction operator signature arguments result strategy action) :
    action.constant? = (strategy.finalDemand? operator).bind Demand.constant? := by
  cases final <;> rfl

namespace CompiledCall.WellFormed

variable {call : CompiledCall} {pool : ConstantPool} {operator : Operator}
  {operands : List Operand} {overload : Overload Strategy}

theorem of_extends {later : ConstantPool} (grown : pool.Extends later)
    (wellFormed : call.WellFormed pool operator operands overload) :
    call.WellFormed later operator operands overload := by
  obtain ⟨decoded, ⟨loads, final, loading, ending, acts⟩, typed⟩ := wellFormed
  have actsLater := Bytecode.actions?_of_extends grown acts
  refine ⟨decoded, ⟨loads, final, loading, ending, actsLater⟩, ?_⟩
  intro runtime answers
  rw [actsLater, ← acts]
  exact typed runtime answers

/-- Code that is well formed denotes exactly the constants that the call asks for. -/
theorem denoted_eq (wellFormed : call.WellFormed pool operator operands overload) :
    call.code.denoted pool = (overload.strategy.constants operator operands).map some := by
  obtain ⟨-, ⟨loads, final, loading, ending, acts⟩, -⟩ := wellFormed
  have last : [final].filterMap Action.constant? =
      (overload.strategy.finalDemand? operator).toList.filterMap Demand.constant? := by
    rw [List.filterMap_cons, ending.constant?_eq]
    cases overload.strategy.finalDemand? operator with
    | none => rfl
    | some demand => cases demand <;> rfl
  rw [Bytecode.denoted_of_actions? acts, Strategy.constants, Strategy.demands,
    List.filterMap_append, List.filterMap_append, loading.filterMap_constant?, last]

end CompiledCall.WellFormed

/-! ## The rest of a session -/

theorem OverloadTable.wellFormed_of_compileAnew {table : OverloadTable Strategy}
    {pool : ConstantPool} {operator : Operator} {operands : List Operand} {call : CompiledCall}
    (compiled : (table.compileAnew pool operator operands).1 = .ok call) :
    ∃ resolution, table.resolve operator (operands.map (·.root)) = some resolution ∧
      call.WellFormed (table.compileAnew pool operator operands).2 operator operands
        resolution.overload := by
  obtain ⟨resolution, state, chosen, emitted, call_eq, after⟩ :=
    exists_emit_of_compileAnew_ok compiled
  have ended := resolution.overload.strategy.callOutcome_emit
    ⟨operator, resolution.overload.signature, operands⟩ pool
  rw [emitted] at ended
  cases ended with
  | compiled _ _ instructions actions means written _ acts =>
      have code_eq : call.code = state.code := congrArg CompiledCall.code call_eq
      refine ⟨resolution, chosen, ?_⟩
      rw [after]
      refine CompiledCall.wellFormed_of_meaning (accepts_of_resolve chosen).2 means ?_ ?_
      · rw [code_eq]
        exact Bytecode.decodedSize_eq_size written
      · rw [code_eq]
        exact (Bytecode.actions?_eq_mapM _ written).trans acts

namespace Session

/-- Code that was compiled in a session is well formed after all later calls. -/
theorem Faithful.wellFormed_later {session : Session} (faithful : session.Faithful)
    {operator : Operator} {operands : List Operand} {call : CompiledCall}
    (compiled : (session.compile operator operands).1 = .ok call)
    (later : List (Operator × List Operand)) :
    ∃ resolution, session.table.resolve operator (operands.map (·.root)) = some resolution ∧
      call.WellFormed ((session.compile operator operands).2.compileAll later).pool operator
        operands resolution.overload := by
  obtain ⟨outcome, pool⟩ := faithful.compile_eq operator operands
  have grown := (faithful.compile operator operands).1.extends_compileAll later
  rw [outcome] at compiled
  obtain ⟨resolution, chosen, wellFormed⟩ := OverloadTable.wellFormed_of_compileAnew compiled
  rw [← pool] at wellFormed
  exact ⟨resolution, chosen, wellFormed.of_extends grown⟩

/-- After any calls the pool holds at most as many constants as instructions can name, all of them
distinct.  The code of each call that was compiled on the way, read to its last byte, names
positions of the pool at which the literals of the call stand and, if it calls the runtime, the
identity of its operator. -/
theorem denoted_compileAll (context : Context) (history : List (Operator × List Operand)) :
    let pool := (context.session.compileAll history).pool
    pool.size ≤ ConstantPool.addressable ∧ pool.constants.toList.Nodup ∧
      ∀ earlier operator operands later call,
        history = earlier ++ (operator, operands) :: later →
          ((context.session.compileAll earlier).compile operator operands).1 = .ok call →
            ∃ resolution,
              context.table.resolve operator (operands.map (·.root)) = some resolution ∧
                call.code.decodedSize = call.code.size ∧
                  call.code.denoted pool =
                    (resolution.overload.strategy.constants operator operands).map some := by
  intro pool
  refine ⟨size_le_of_context context history, pool.nodup_constants, ?_⟩
  rintro earlier operator operands later call rfl compiled
  obtain ⟨kept, sameTable⟩ := (faithful_session context).compileAll earlier
  obtain ⟨resolution, chosen, wellFormed⟩ := kept.wellFormed_later compiled later
  rw [sameTable] at chosen
  have reached : pool = (((context.session.compileAll earlier).compile operator
      operands).2.compileAll later).pool := by
    have split := compileAll_append context.session earlier ((operator, operands) :: later)
    exact congrArg Session.pool split
  refine ⟨resolution, chosen, wellFormed.decoded, ?_⟩
  rw [reached]
  exact wellFormed.denoted_eq

/-- The second call asks for a literal of its own and for a slot that has no name of one byte. -/
theorem denoted_compileAll_power :
    let power : Operator := ⟨7, "POWER", .function⟩
    let overload : Overload Strategy :=
      { operator := power, signature := [.double, .double], strategy := .math .power }
    let context : Context :=
      { settings := {}, table := { overloads := [overload], mode := .streaming } }
    let two : Operand := .ofLiteral (.int 2) (.simple .integer)
    let half : Operand := .ofLiteral (.double 0x3FE0000000000000) (.simple .double)
    let three : Operand := .ofLiteral (.int 3) (.simple .integer)
    let far : Operand := .ofSlot 256 (.simple .double)
    let history := [(power, [two, half]), (power, [three, far])]
    ∃ call, (context.session.compile power [two, half]).1 = .ok call ∧
      call.code.denoted (context.session.compileAll history).pool =
        [some (.int 2), some (.double 0x3FE0000000000000), some (.operator 7)] := by
  intro power overload context two half three far history
  have resolved : context.table.resolve power [.integer, .double] =
      some ⟨overload, .approximate⟩ :=
    (context.table.resolve_eq_scan power [.integer, .double]).trans rfl
  have means : meaning context.table power [two, half] =
      .ok (.approximate, .simple .double, [.push (.int 2), .direct .i32ToF64 [],
        .push (.double 0x3FE0000000000000), .call 7 2]) := by
    have called : context.table.resolve power ([two, half].map (·.root)) =
        some ⟨overload, .approximate⟩ := resolved
    rw [meaning, called]
    rfl
  obtain ⟨call, after, compiled, -, -⟩ :=
    (faithful_session context).compile_eq_ok means (by decide)
  have succeeded : (context.session.compile power [two, half]).1 = .ok call :=
    congrArg Prod.fst compiled
  obtain ⟨resolution, chosen, -, denoted⟩ := (denoted_compileAll context history).2.2 []
    power [two, half] [(power, [three, far])] call rfl succeeded
  obtain rfl : ⟨overload, .approximate⟩ = resolution :=
    Option.some.inj (resolved.symm.trans chosen)
  exact ⟨call, succeeded, denoted⟩

end Session
end OperatorDispatch
