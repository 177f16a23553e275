import OperatorDispatch.Proofs.Call.WellFormed

/-!
# Where NULL comes from

On this machine a value is either NULL or not.  Every instruction that takes inputs leaves NULL
exactly if one of them is NULL, so a call gives NULL exactly if one of its operands does.  The type
of the result follows from the types of the operands alone.  Of a result that is `NOT NULL` this
leaves one way to be NULL: the literal NULL, as an operand of a type that is `NOT NULL`.
-/

namespace OperatorDispatch

/-- Whether the operand is NULL, given the slots that are. -/
def Operand.isNull (slots : Nat → Bool) (operand : Operand) : Bool :=
  match operand.source with
  | .slot number => slots number
  | .literal value => value = .null

/-- No slot is NULL where an operand reads it as `NOT NULL`. -/
def Operand.Respects (slots : Nat → Bool) (operands : List Operand) : Prop :=
  ∀ operand ∈ operands, ∀ number, operand.source = .slot number →
    operand.type.nullable = false → slots number = false

/-! ## The machine -/

namespace NullMachine

/-- Takes `count` values from the stack and leaves one, which is NULL if one of them is. -/
def reduce (count : Nat) (stack : List Bool) : Option (List Bool) :=
  if count ≤ stack.length then
    some ((stack.take count).any id :: stack.drop count)
  else
    none

/-- The stack after an action.  The topmost value stands first, and `true` stands for NULL. -/
def step (slots : Nat → Bool) (stack : List Bool) : Action → Option (List Bool)
  | .load number => some (slots number :: stack)
  | .push constant => if constant.isValue then some (false :: stack) else none
  | .direct .pushNull [] => some (true :: stack)
  | .direct opcode _ => reduce opcode.inputs stack
  | .call _ arguments => reduce arguments stack

/-- The stack after a sequence of actions. -/
def run (slots : Nat → Bool) (stack : List Bool) (actions : List Action) : Option (List Bool) :=
  actions.foldlM (step slots) stack

variable {slots : Nat → Bool}

theorem run_cons (slots : Nat → Bool) (stack : List Bool) (action : Action)
    (actions : List Action) :
    run slots stack (action :: actions) =
      (step slots stack action).bind fun stack => run slots stack actions :=
  List.foldlM_cons

theorem run_append (slots : Nat → Bool) (stack : List Bool) (first second : List Action) :
    run slots stack (first ++ second) =
      (run slots stack first).bind fun stack => run slots stack second :=
  List.foldlM_append

theorem reduce_all {count : Nat} {stack : List Bool} (all : count = stack.length) :
    reduce count stack = some [stack.any id] := by
  rw [reduce, if_pos (Nat.le_of_eq all), all, List.take_length, List.drop_length]

theorem step_action (slots : Nat → Bool) (operand : Operand) (stack : List Bool) :
    step slots stack operand.action = some (operand.isNull slots :: stack) := by
  rw [Operand.action, Operand.isNull]
  cases operand.source with
  | slot number => rfl
  | literal value => cases value <;> rfl

theorem step_direct (slots : Nat → Bool) {opcode : Opcode} (other : opcode ≠ .pushNull)
    (stack : List Bool) (operands : List UInt8) :
    step slots stack (.direct opcode operands) = reduce opcode.inputs stack := by
  rw [step]
  rintro rfl
  contradiction

theorem step_conversion (slots : Nat → Bool) {source target : TypeRoot} {opcode : Opcode}
    (converts : Opcode.widening? source target = some opcode) (null : Bool) (stack : List Bool) :
    step slots (null :: stack) (.direct opcode []) = some (null :: stack) := by
  have primitive := Opcode.primitive?_of_widening? converts
  have one : opcode.inputs = 1 := Opcode.inputs_of_primitive? primitive
  have other : opcode ≠ .pushNull := by
    rintro rfl
    contradiction
  have enough : 1 ≤ (null :: stack).length := Nat.le_add_left 1 _
  rw [step_direct slots other, one, reduce, if_pos enough]
  simp

theorem run_loads (slots : Nat → Bool) {operands : List Operand} {signature : Signature}
    {actions : List Action} (loads : Loads operands signature actions) (stack : List Bool) :
    run slots stack actions = some ((operands.map (·.isNull slots)).reverse ++ stack) := by
  induction loads generalizing stack with
  | nil => rfl
  | same rest induction =>
      rw [run_cons, step_action, Option.bind_some, induction, List.map_cons, List.reverse_cons,
        List.append_assoc]
      rfl
  | widened differs converts rest induction =>
      rw [run_cons, step_action, Option.bind_some, run_cons, step_conversion slots converts,
        Option.bind_some, induction, List.map_cons, List.reverse_cons, List.append_assoc]
      rfl

end NullMachine

theorem TypedMachine.exists_result_of_reduce {count : Nat}
    {result? : List LogicalType → Option LogicalType} {types : List LogicalType}
    {type : LogicalType} (reduced : reduce count result? ⟨[], types⟩ = some ⟨[], [type]⟩) :
    count = types.length ∧ ∃ inputs, result? inputs = some type := by
  rw [reduce] at reduced
  split at reduced
  · next enough =>
      obtain ⟨left, typed, same⟩ := Option.map_eq_some_iff.1 reduced
      obtain ⟨rfl, dropped⟩ := List.cons.inj (congrArg TypedMachine.stack same)
      exact ⟨Nat.le_antisymm enough (List.drop_eq_nil_iff.1 dropped), _, typed⟩
  · contradiction

/-- Where the typed machine ends with one value, this machine does, and the value is NULL if one
was. -/
theorem NullMachine.step_of_typed (slots : Nat → Bool) {runtime : Runtime}
    {types : List LogicalType} {type : LogicalType} {action : Action}
    (typed : TypedMachine.step runtime ⟨[], types⟩ action = some ⟨[], [type]⟩)
    {stack : List Bool} (high : stack.length = types.length) :
    step slots stack action = some [stack.any id] := by
  -- No operand is left to be pushed.
  cases action with
  | load number => contradiction
  | push constant =>
      rw [TypedMachine.step] at typed
      split at typed <;> contradiction
  | call identity arguments =>
      exact reduce_all ((TypedMachine.exists_result_of_reduce typed).1.trans high.symm)
  | direct opcode operands =>
      by_cases other : opcode = .pushNull
      · subst other
        -- Without operand bytes it pushes; with some it has no type.
        cases operands with
        | nil => contradiction
        | cons byte operands =>
            obtain ⟨-, inputs, untyped⟩ := TypedMachine.exists_result_of_reduce typed
            contradiction
      · rw [TypedMachine.step] at typed
        · rw [step_direct slots other]
          exact reduce_all ((TypedMachine.exists_result_of_reduce typed).1.trans high.symm)
        · rintro rfl
          contradiction

/-! ## Compiled calls -/

/-- A call leaves one value, which is NULL exactly if one of its operands is. -/
theorem CompiledCall.WellFormed.run_nulls {call : CompiledCall} {pool : ConstantPool}
    {operator : Operator} {operands : List Operand} {overload : Overload Strategy}
    (wellFormed : call.WellFormed pool operator operands overload) (slots : Nat → Bool) :
    (call.code.actions? pool).bind (NullMachine.run slots []) =
      some [operands.any (·.isNull slots)] := by
  obtain ⟨-, ⟨loads, final, loading, -, acts⟩, typed⟩ := wellFormed
  let runtime : Runtime := fun _ _ => some call.resultType
  have ended := typed runtime fun _ => rfl
  have pushed := TypedMachine.run_loads runtime loading [] []
  rw [List.append_nil, List.append_nil] at pushed
  rw [acts, Option.bind_some, TypedMachine.run_append, pushed, Option.bind_some] at ended
  obtain ⟨last, stepped, same⟩ := Option.bind_eq_some_iff.1 ended
  rw [Option.some.inj same] at stepped
  let nulls : List Bool := operands.map (·.isNull slots)
  have counted : (nulls.reverse ++ []).length =
      (Operand.fittedTypes operands overload.signature).reverse.length := by
    have roots := congrArg List.length loading.map_root_fittedTypes
    rw [List.length_map, ← loading.length_eq] at roots
    simp [nulls, roots]
  have reduced := NullMachine.step_of_typed slots stepped counted
  rw [acts, Option.bind_some, NullMachine.run_append, NullMachine.run_loads slots loading,
    Option.bind_some, NullMachine.run_cons, reduced]
  simp [NullMachine.run, nulls]

namespace Session

theorem meaning_eq_ok {table : OverloadTable Strategy} {operator : Operator}
    {operands : List Operand} {kind : MatchKind} {type : LogicalType} {actions : List Action}
    (means : meaning table operator operands = .ok (kind, type, actions)) :
    ∃ resolution, table.resolve operator (operands.map (·.root)) = some resolution ∧
      resolution.kind = kind ∧
      resolution.overload.strategy.meaning ⟨operator, resolution.overload.signature, operands⟩ =
        .ok (type, actions) := by
  rw [meaning] at means
  cases chosen : table.resolve operator (operands.map (·.root)) with
  | none =>
      rw [chosen] at means
      contradiction
  | some resolution =>
      rw [chosen] at means
      obtain ⟨⟨type, callActions⟩, meant, same⟩ := bind_eq_ok.1 means
      obtain ⟨sameKind, rest⟩ := Prod.mk.inj (Except.ok.inj same)
      exact ⟨resolution, rfl, sameKind, meant.trans (congrArg Except.ok rest)⟩

/-- In a session that remembers what the table answers, the code of a call leaves one value, which
is NULL exactly if one of the operands is; and its type may be NULL exactly if one of theirs may. -/
theorem Faithful.run_nulls {session : Session} (faithful : session.Faithful) {operator : Operator}
    {operands : List Operand} {call : CompiledCall} {after : Session}
    (compiled : session.compile operator operands = (.ok call, after)) (slots : Nat → Bool) :
    call.code.decodedSize = call.code.size ∧
      call.resultType.nullable = operands.any (·.type.nullable) ∧
      (call.code.actions? after.pool).bind (NullMachine.run slots []) =
        some [operands.any (·.isNull slots)] := by
  have ended := faithful.compileOutcome operator operands
  rw [compiled] at ended
  cases ended with
  | compiled _ _ actions means decoded acts =>
      obtain ⟨resolution, chosen, -, meant⟩ := meaning_eq_ok means
      obtain ⟨plan, -, -, -, type, -⟩ := Strategy.meaning_eq_ok meant
      have scanned := (session.table.resolve_eq_scan _ _).symm.trans chosen
      obtain ⟨-, -, accepted⟩ := OverloadTable.accepts_of_scan scanned
      have wellFormed := CompiledCall.wellFormed_of_meaning accepted meant decoded acts
      exact ⟨decoded, by rw [type]; rfl, wellFormed.run_nulls slots⟩

end Session

namespace Operand

theorem any_isNull_iff {slots : Nat → Bool} {operands : List Operand}
    (respected : Respects slots operands)
    (notNull : operands.any (·.type.nullable) = false) :
    operands.any (·.isNull slots) = true ↔
      ∃ operand ∈ operands, operand.source = .literal .null := by
  rw [List.any_eq_true]
  refine exists_congr fun operand => and_congr_right fun member => ?_
  have strict : operand.type.nullable = false := by
    simpa using List.any_eq_false.1 notNull operand member
  rw [isNull]
  cases source : operand.source with
  | slot number => simp [respected operand member number source strict]
  | literal value => simp

end Operand

/-- A prefix minus, with an identity chosen by hand. -/
def Operator.negation : Operator := ⟨7, "-", .prefixOp⟩

/-- The context in which integers can be negated and nothing else can be done. -/
def Context.negating : Context where
  settings := {}
  table :=
    { overloads := [{ operator := .negation, signature := [.integer], strategy := .negate }]
      mode := .streaming }

namespace Session

theorem meaning_negating {operands : List Operand} (roots : operands.map (·.root) = [.integer]) :
    meaning Context.negating.table .negation operands =
      Strategy.negate.meaning ⟨.negation, [.integer], operands⟩ >>=
        fun meant => pure (.exact, meant) := by
  have resolved : Context.negating.table.resolve .negation [.integer] = some ⟨_, .exact⟩ :=
    (Context.negating.table.resolve_eq_scan .negation [.integer]).trans rfl
  rw [meaning, roots, resolved]

/-- A call leaves one value, which is NULL exactly if one of its operands is.  If the type of the
result is `NOT NULL`, only an operand that is the literal NULL can make it so: such an operand may
have a type that is `NOT NULL`, and nothing but the types decides on the type of the result. -/
theorem nulls_of_compile (context : Context) (history : List (Operator × List Operand))
    (operator : Operator) (operands : List Operand) (call : CompiledCall) (after : Session)
    (compiled : (context.session.compileAll history).compile operator operands =
      (.ok call, after))
    (slots : Nat → Bool) (respected : Operand.Respects slots operands) :
    call.code.decodedSize = call.code.size ∧
      (call.code.actions? after.pool).bind (NullMachine.run slots []) =
        some [operands.any (·.isNull slots)] ∧
      (call.resultType.nullable = false →
        (operands.any (·.isNull slots) = true ↔
          ∃ operand ∈ operands, operand.source = .literal .null)) := by
  obtain ⟨kept, -⟩ := (faithful_session context).compileAll history
  obtain ⟨decoded, nullable, ran⟩ := kept.run_nulls compiled slots
  refine ⟨decoded, ran, fun notNull => Operand.any_isNull_iff respected ?_⟩
  rw [← nullable, notNull]

/-- The negation of a slot that is `NOT NULL` is not NULL. -/
theorem nulls_of_compile_negation :
    let operands : List Operand := [.ofSlot 3 (LogicalType.simple .integer).notNull]
    let slots : Nat → Bool := fun number => number != 3
    ∃ call after,
      (Context.negating.session.compileAll []).compile .negation operands = (.ok call, after) ∧
        Operand.Respects slots operands ∧
        call.resultType = (LogicalType.simple .integer).notNull ∧
        (call.code.actions? after.pool).bind (NullMachine.run slots []) = some [false] := by
  intro operands slots
  have means : meaning Context.negating.table .negation operands =
      .ok (.exact, (LogicalType.simple .integer).notNull, [.load 3, .direct .negI32 []]) :=
    (meaning_negating rfl).trans rfl
  obtain ⟨call, after, compiled, -, type⟩ :=
    (faithful_session Context.negating).compile_eq_ok means (by decide)
  have respected : Operand.Respects slots operands := by
    rintro operand member number source -
    rw [List.mem_singleton.1 member] at source
    rw [← OperandSource.slot.inj source]
    rfl
  obtain ⟨-, ran, -⟩ := nulls_of_compile Context.negating [] .negation operands call after
    compiled slots respected
  exact ⟨call, after, compiled, respected, type, ran⟩

/-- The negation of NULL, given as a value of `INTEGER NOT NULL`, has the same type and is NULL. -/
theorem exists_null_of_notNull :
    let operands : List Operand := [.ofLiteral .null (LogicalType.simple .integer).notNull]
    let slots : Nat → Bool := fun _ => false
    ∃ call after, Context.negating.session.compile .negation operands = (.ok call, after) ∧
      Operand.Respects slots operands ∧
      call.resultType = (LogicalType.simple .integer).notNull ∧
      (call.code.actions? after.pool).bind (NullMachine.run slots []) = some [true] := by
  intro operands slots
  have means : meaning Context.negating.table .negation operands =
      .ok (.exact, (LogicalType.simple .integer).notNull,
        [.direct .pushNull [], .direct .negI32 []]) := (meaning_negating rfl).trans rfl
  obtain ⟨call, after, compiled, -, type⟩ :=
    (faithful_session Context.negating).compile_eq_ok means (by decide)
  obtain ⟨-, -, ran⟩ := (faithful_session Context.negating).run_nulls compiled slots
  exact ⟨call, after, compiled, fun _ _ _ _ _ => rfl, type, ran⟩

end Session
end OperatorDispatch
