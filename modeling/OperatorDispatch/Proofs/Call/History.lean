import OperatorDispatch.Call.Context
import OperatorDispatch.Proofs.Call.Plan
import OperatorDispatch.Proofs.Overload.Choice

/-!
# Independence of the history

A session remembers choices and collects constants.  What it remembers is what the table would
answer again, and where a constant stands in the pool cannot be seen once it is looked up.  So what
a call is compiled to does not depend on the calls before it, as long as its constants find room.
-/

namespace OperatorDispatch

variable {σ : Type}

theorem OverloadTable.resolve_congr (table : OverloadTable σ) {left right : Operator}
    (same : left.identity = right.identity) (roots : List TypeRoot) :
    table.resolve left roots = table.resolve right roots := by
  simp only [resolve_eq_scan, scan, Operator.same_eq_decide, same]

namespace Session

/-- The session after a sequence of calls, failing ones among them. -/
def compileAll (session : Session) (history : List (Operator × List Operand)) : Session :=
  history.foldl (fun session (operator, operands) => (session.compile operator operands).2) session

/-! ## What a session remembers -/

/-- Every outcome that the session remembers is the one that the table gives. -/
def Faithful (session : Session) : Prop :=
  ∀ (operator : Operator) (roots : List TypeRoot) (outcome : Option (Resolution Strategy)),
    session.memo[(⟨operator.identity, roots⟩ : CallKey)]? = some outcome →
      outcome = session.table.resolve operator roots

theorem faithful_session (context : Context) : context.session.Faithful := by
  intro operator roots outcome remembered
  simp [Context.session] at remembered

theorem Faithful.insert {session : Session} (faithful : session.Faithful) (operator : Operator)
    (roots : List TypeRoot) :
    Faithful { session with
      memo := session.memo.insert ⟨operator.identity, roots⟩
        (session.table.resolve operator roots) } := by
  intro other otherRoots outcome remembered
  simp only [Std.HashMap.getElem?_insert] at remembered
  split at remembered
  · next same =>
      obtain ⟨identity, rfl⟩ := CallKey.mk.inj (beq_iff_eq.1 same)
      rw [← Option.some.inj remembered]
      exact session.table.resolve_congr identity roots
  · exact faithful other otherRoots outcome remembered

theorem Faithful.resolve {session : Session} (faithful : session.Faithful) (operator : Operator)
    (roots : List TypeRoot) :
    ∃ after, session.resolve operator roots = (session.table.resolve operator roots, after) ∧
      after.Faithful ∧ after.table = session.table ∧ after.pool = session.pool := by
  rw [Session.resolve]
  cases remembered : session.memo[(⟨operator.identity, roots⟩ : CallKey)]? with
  | some outcome =>
      rw [faithful operator roots outcome remembered]
      exact ⟨session, rfl, faithful, rfl, rfl⟩
  | none => exact ⟨_, rfl, faithful.insert operator roots, rfl, rfl⟩

theorem compileResolved_snd (session : Session) (operator : Operator) (operands : List Operand)
    (resolution : Resolution Strategy) :
    ∃ pool journal, (session.compileResolved operator operands resolution).2 =
      { session with pool, journal } := by
  rw [compileResolved]
  split
  · exact ⟨_, _, rfl⟩
  · exact ⟨_, _, rfl⟩

theorem Faithful.compile {session : Session} (faithful : session.Faithful) (operator : Operator)
    (operands : List Operand) :
    (session.compile operator operands).2.Faithful ∧
      (session.compile operator operands).2.table = session.table := by
  obtain ⟨after, resolved, kept, sameTable, -⟩ := faithful.resolve operator (operands.map (·.root))
  rw [Session.compile, resolved]
  cases session.table.resolve operator (operands.map (·.root)) with
  | none => exact ⟨kept, sameTable⟩
  | some resolution =>
      obtain ⟨pool, journal, same⟩ := compileResolved_snd after operator operands resolution
      simp only [same]
      exact ⟨kept, sameTable⟩

theorem Faithful.compileAll {session : Session} (faithful : session.Faithful)
    (history : List (Operator × List Operand)) :
    (session.compileAll history).Faithful ∧
      (session.compileAll history).table = session.table := by
  induction history generalizing session with
  | nil => exact ⟨faithful, rfl⟩
  | cons call history induction =>
      obtain ⟨kept, sameTable⟩ := faithful.compile call.1 call.2
      obtain ⟨keptAfter, sameTableAfter⟩ := induction kept
      exact ⟨keptAfter, sameTableAfter.trans sameTable⟩

/-! ## What a call stands for -/

/-- How a call is matched, the type of its result and its actions, or why there are none.  Only the
table is consulted. -/
def meaning (table : OverloadTable Strategy) (operator : Operator) (operands : List Operand) :
    Except CallError (MatchKind × LogicalType × List Action) :=
  match table.resolve operator (operands.map (·.root)) with
  | none => .error (.noMatchingSignature operator.name (operands.map (·.type)))
  | some resolution => do
      let site : CallSite := ⟨operator, resolution.overload.signature, operands⟩
      return (resolution.kind, ← resolution.overload.strategy.meaning site)

/-- A call in a session is compiled to what it stands for, or fails with the cause that is given for
it, or the pool has no room for two more constants. -/
inductive CompileOutcome (meaning : Except CallError (MatchKind × LogicalType × List Action))
    (pool : ConstantPool) : Except CallError CompiledCall × Session → Prop where
  /-- The code decodes to the actions of the call. -/
  | compiled (call : CompiledCall) (after : Session) (actions : List Action)
      (means : meaning = .ok (call.kind, call.resultType, actions))
      (decoded : call.code.decodedSize = call.code.size)
      (acts : call.code.actions? after.pool = some actions) :
      CompileOutcome meaning pool (.ok call, after)
  /-- The call is refused, for the same cause. -/
  | refused (cause : CallError) (after : Session) (means : meaning = .error cause) :
      CompileOutcome meaning pool (.error cause, after)
  /-- A constant found no room. -/
  | overflowed (after : Session) (full : ConstantPool.addressable ≤ pool.size + 2) :
      CompileOutcome meaning pool (.error (.poolOverflow ConstantPool.addressable), after)

/-- Compiling a call follows its meaning in every session that remembers what the table answers. -/
theorem Faithful.compileOutcome {session : Session} (faithful : session.Faithful)
    (operator : Operator) (operands : List Operand) :
    CompileOutcome (meaning session.table operator operands) session.pool
      (session.compile operator operands) := by
  obtain ⟨after, resolved, -, -, samePool⟩ := faithful.resolve operator (operands.map (·.root))
  rw [Session.compile, resolved, meaning]
  cases session.table.resolve operator (operands.map (·.root)) with
  | none => exact .refused _ _ rfl
  | some resolution =>
      have ended := resolution.overload.strategy.callOutcome_emit
        ⟨operator, resolution.overload.signature, operands⟩ session.pool
      simp only [compileResolved, samePool]
      generalize resolution.overload.strategy.emit
        ⟨operator, resolution.overload.signature, operands⟩ { pool := session.pool } = result
        at ended ⊢
      cases ended with
      | compiled type state instructions actions means written grown acts =>
          refine .compiled ⟨state.code, type, resolution.kind⟩ _ actions ?_
            (Bytecode.decodedSize_eq_size written) ?_
          · rw [means]
            rfl
          · exact (Bytecode.actions?_eq_mapM _ written).trans acts
      | refused cause state means grown =>
          refine .refused cause _ ?_
          rw [means]
          rfl
      | overflowed state grown full => exact .overflowed _ full

/-- A call that stands for something is compiled if the pool has room for two more constants. -/
theorem Faithful.compile_eq_ok {session : Session} (faithful : session.Faithful)
    {operator : Operator} {operands : List Operand} {kind : MatchKind} {type : LogicalType}
    {actions : List Action}
    (means : meaning session.table operator operands = .ok (kind, type, actions))
    (room : session.pool.size + 2 < ConstantPool.addressable) :
    ∃ call after, session.compile operator operands = (.ok call, after) ∧ call.kind = kind ∧
      call.resultType = type := by
  have ended := faithful.compileOutcome operator operands
  rw [means] at ended
  generalize session.compile operator operands = result at ended
  cases ended with
  | compiled call after callActions same =>
      obtain ⟨sameKind, sameRest⟩ := Prod.mk.inj (Except.ok.inj same)
      exact ⟨call, after, rfl, sameKind.symm, (Prod.mk.inj sameRest).1.symm⟩
  | refused cause after other => contradiction
  | overflowed after full => exact absurd room (Nat.not_lt_of_le full)

/-! ## Two sessions -/

/-- What can be told about a call without regard to positions in the pool: why it failed, or how it
was matched, the type of its result and its actions. -/
def observed : Except CallError CompiledCall × Session →
    Except CallError (MatchKind × LogicalType × Option (List Action))
  | (.ok call, session) => .ok (call.kind, call.resultType, call.code.actions? session.pool)
  | (.error cause, _) => .error cause

/-- What is observed is the meaning, unless the pool is full. -/
theorem CompileOutcome.observed_eq
    {meaning : Except CallError (MatchKind × LogicalType × List Action)} {pool : ConstantPool}
    {result : Except CallError CompiledCall × Session}
    (ended : CompileOutcome meaning pool result) :
    (result.1 = .error (.poolOverflow ConstantPool.addressable) ∧
        ConstantPool.addressable ≤ pool.size + 2) ∨
      observed result = meaning.map fun (kind, type, actions) => (kind, type, some actions) := by
  cases ended with
  | compiled call after actions means decoded acts =>
      right
      rw [means, observed, acts]
      rfl
  | refused cause after means =>
      right
      rw [means]
      rfl
  | overflowed after full => exact .inl ⟨rfl, full⟩

theorem CompileOutcome.isSome_actions?
    {meaning : Except CallError (MatchKind × LogicalType × List Action)} {pool : ConstantPool}
    {result : Except CallError CompiledCall × Session}
    (ended : CompileOutcome meaning pool result) {call : CompiledCall}
    (compiled : result.1 = .ok call) : (call.code.actions? result.2.pool).isSome = true := by
  cases ended with
  | compiled _ after actions means decoded acts =>
      cases compiled
      simp only [acts, Option.isSome_some]
  | refused => contradiction
  | overflowed => contradiction

/-- A call after any history either finds no room for its constants, which takes a pool with fewer
than two free positions, or is observed to be what it is in a fresh session.  In the second case
its code decodes. -/
theorem observed_compileAll (context : Context) (history : List (Operator × List Operand))
    (operator : Operator) (operands : List Operand) :
    let fresh := context.session
    let used := fresh.compileAll history
    ((used.compile operator operands).1 = .error (.poolOverflow ConstantPool.addressable) ∧
        ConstantPool.addressable ≤ used.pool.size + 2) ∨
      (observed (used.compile operator operands) = observed (fresh.compile operator operands) ∧
        ∀ call, (used.compile operator operands).1 = .ok call →
          (call.code.actions? (used.compile operator operands).2.pool).isSome = true) := by
  intro fresh used
  have faithful : fresh.Faithful := faithful_session context
  obtain ⟨kept, sameTable⟩ := faithful.compileAll history
  have usedOutcome := kept.compileOutcome operator operands
  rw [sameTable] at usedOutcome
  rcases (faithful.compileOutcome operator operands).observed_eq with ⟨-, full⟩ | freshIs
  · have empty : ¬ConstantPool.addressable ≤ 0 + 2 := by decide
    exact absurd full empty
  · rcases usedOutcome.observed_eq with overflow | usedIs
    · exact .inl overflow
    · exact .inr ⟨usedIs.trans freshIs.symm, fun call => usedOutcome.isSome_actions?⟩

end Session
end OperatorDispatch
