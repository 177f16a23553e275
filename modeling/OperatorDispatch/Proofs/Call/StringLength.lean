import Mathlib.Algebra.GroupWithZero.Nat
import OperatorDispatch.Proofs.Call.Standard

/-!
# Lengths of character results

A concatenation is as long as its operands together, but never longer than the greatest length.  A
change of case keeps the type of its operand, and with it a length that no concatenation reaches.
-/

namespace OperatorDispatch

theorem mapError_eq_ok {ε δ α : Type} {action : Except ε α} {cause : ε → δ} {value : α} :
    action.mapError cause = .ok value ↔ action = .ok value := by
  cases action <;> simp [Except.mapError]

namespace LogicalType

variable {type : LogicalType}

theorem length?_of_build {root : TypeRoot} {length : UInt32} {cause : TypeError}
    (built : build root (.length length) cause = .ok type) :
    type.root = root ∧ type.length? = some length := by
  obtain ⟨rootIs, params, -⟩ := build_eq_ok built
  exact ⟨rootIs, by rw [length?, params]⟩

theorem exists_one_le_length? (string : type.root.isInAll [.characterString] = true) :
    ∃ length, type.length? = some length ∧ 1 ≤ length := by
  obtain ⟨length, known⟩ := exists_length? string
  exact ⟨length, known, UInt32.le_iff_toNat_le.2 (one_le_of_length? known)⟩

end LogicalType

namespace CharacterString

/-- Joining lengths one by one clamps their sum once. -/
theorem toNat_foldl_joinedLength {start : UInt32} (lengths : List UInt32)
    (bounded : start.toNat ≤ maxLength.toNat) :
    (lengths.foldl joinedLength start).toNat =
      min (start.toNat + (lengths.map UInt32.toNat).sum) maxLength.toNat := by
  have most : maxLength.toNat = 2147483647 := rfl
  induction lengths generalizing start with
  | nil => exact (Nat.min_eq_left bounded).symm
  | cons length lengths induction =>
      have joined := toNat_joinedLength start length
      rw [List.foldl_cons, induction (by omega), joined, List.map_cons, List.sum_cons]
      omega

theorem concatType_eq_ok {operator : Operator} {operands : List Operand} {type : LogicalType}
    (typed : concatType operator operands = .ok type) :
    ∃ lengths, operands.mapM (lengthOf operator) = .ok lengths ∧
      type.root = (if operands.all (·.root = .char) then .char else .varchar) ∧
        type.length? = some (lengths.foldl joinedLength 0) := by
  rw [concatType_eq] at typed
  obtain ⟨lengths, known, typed⟩ := bind_eq_ok.1 typed
  refine ⟨lengths, known, ?_⟩
  split at typed
  · next fixed =>
      rw [if_pos fixed]
      exact LogicalType.length?_of_build (mapError_eq_ok.1 typed)
  · next varying =>
      rw [if_neg varying]
      exact LogicalType.length?_of_build (mapError_eq_ok.1 typed)

theorem length_of_concatType {operator : Operator} {operands : List Operand} {type : LogicalType}
    (typed : concatType operator operands = .ok type) :
    type.root.isInAll [.characterString] = true ∧
      ∀ length, type.length? = some length → length ≤ maxLength := by
  obtain ⟨lengths, -, rootIs, lengthIs⟩ := concatType_eq_ok typed
  constructor
  · rw [rootIs]
    split <;> rfl
  · intro length known
    obtain rfl : _ = length := Option.some.inj (lengthIs.symm.trans known)
    rw [UInt32.le_iff_toNat_le, toNat_foldl_joinedLength lengths (Nat.zero_le _)]
    exact Nat.min_le_right _ _

end CharacterString

namespace Strategy

variable {site : CallSite} {plan : CallPlan} {function : StringFunction}

theorem result_of_concat (planned : (string .concat).plan site = .ok plan) :
    CharacterString.concatType site.operator site.operands = .ok plan.result := by
  obtain ⟨_, -, planned⟩ := bind_eq_ok.1 planned
  obtain ⟨type, typed, planned⟩ := bind_eq_ok.1 planned
  cases planned
  exact typed

theorem arity_string (other : function ≠ .concat) : (string function).arity = (1, 1) := by
  cases function with
  | upper | lower | charLength => rfl
  | concat => contradiction

theorem result_of_changeOfCase (planned : (string function).plan site = .ok plan)
    (character : function ≠ .charLength) (other : function ≠ .concat) :
    ∃ operand, site.operands = [operand] ∧ plan.result = operand.type := by
  obtain ⟨_, checked, planned⟩ := bind_eq_ok.1 planned
  obtain ⟨⟨atLeast, atMost⟩, -⟩ := checkArity_eq_ok.1 checked
  rw [arity_string other] at atLeast atMost
  obtain ⟨operand, given⟩ := List.length_eq_one_iff.1 (Nat.le_antisymm atMost atLeast)
  refine ⟨operand, given, ?_⟩
  cases function with
  | upper | lower =>
      obtain ⟨⟨root, type⟩, first, planned⟩ := bind_eq_ok.1 planned
      obtain ⟨-, first, rest, -, again, typeIs⟩ := CallSite.firstOperand_eq_ok.1 first
      cases planned
      cases given.symm.trans again
      exact typeIs.symm
  | charLength | concat => contradiction

end Strategy

/-- The operators whose results are character strings. -/
def StandardCatalog.characterFunctions : List (Operator × StringFunction) :=
  [(.upper, .upper), (.lower, .lower), (.concat, .concat)]

/-- In the standard catalog these operators stand for their functions alone, on character strings
alone. -/
theorem StandardCatalog.string_of_same (mode : ExecutionMode) :
    ∀ overload ∈ standardCatalog.registrations mode,
      ∀ listed ∈ characterFunctions, overload.operator.same listed.1 = true →
        overload.strategy = .string listed.2 ∧
          overload.signature.all (·.isInAll [.characterString]) = true := by
  cases mode <;> decide +kernel

namespace Session

theorem exists_plan_of_compile (context : Context) (history : List (Operator × List Operand))
    {operator : Operator} {operands : List Operand} {call : CompiledCall} {after : Session}
    (compiled : (context.session.compileAll history).compile operator operands =
      (.ok call, after)) :
    ∃ overload plan, overload ∈ context.table.overloads ∧
      overload.operator.same operator = true ∧
        overload.signature.accepts (operands.map (·.root)) = true ∧
          overload.strategy.plan ⟨operator, overload.signature, operands⟩ = .ok plan ∧
            call.resultType = plan.result.withNullable (operands.any (·.type.nullable)) := by
  obtain ⟨faithful, sameTable⟩ := (faithful_session context).compileAll history
  have outcome := (faithful.compile_eq operator operands).1
  rw [compiled, sameTable] at outcome
  obtain ⟨resolution, state, chosen, emitted, -, -⟩ :=
    OverloadTable.exists_emit_of_compileAnew_ok outcome.symm
  change context.table.resolve operator (operands.map (·.root)) = some resolution at chosen
  obtain ⟨member, same, accepted⟩ := OverloadTable.accepts_of_scan
    ((context.table.resolve_eq_scan operator (operands.map (·.root))).symm.trans chosen)
  have ended := resolution.overload.strategy.callOutcome_emit
    ⟨operator, resolution.overload.signature, operands⟩ (context.session.compileAll history).pool
  rw [emitted] at ended
  cases ended with
  | compiled _ _ _ _ means =>
      obtain ⟨plan, -, planned, -, typeIs, -⟩ := Strategy.meaning_eq_ok means
      exact ⟨resolution.overload, plan, member, same, accepted, planned, typeIs⟩

/-- In every session over the standard catalog, a compiled call of one of these operators gives a
character string with room for a character.  A concatenation is no longer than the greatest length;
a change of case has the type of its operand, whatever its length. -/
theorem length_of_compile_string {settings : Settings} {context : Context} {journal : Array Event}
    (built : Context.standard settings = (.ok context, journal))
    (history : List (Operator × List Operand)) {operator : Operator} {function : StringFunction}
    (listed : (operator, function) ∈ StandardCatalog.characterFunctions)
    {operands : List Operand} {call : CompiledCall} {after : Session}
    (compiled : (context.session.compileAll history).compile operator operands =
      (.ok call, after)) :
    ∃ length, call.resultType.root.isInAll [.characterString] = true ∧
      call.resultType.length? = some length ∧ 1 ≤ length ∧
        (function = .concat → length ≤ CharacterString.maxLength) ∧
          (function ≠ .concat → ∃ operand, operands = [operand] ∧
            call.resultType = operand.type) := by
  obtain ⟨overload, plan, member, same, accepted, planned, typeIs⟩ :=
    exists_plan_of_compile context history compiled
  rw [Context.overloads_of_standard built] at member
  obtain ⟨strategy, strings⟩ :=
    StandardCatalog.string_of_same settings.mode overload member _ listed same
  have character : function ≠ .charLength := by
    rintro rfl
    simp [StandardCatalog.characterFunctions] at listed
  rw [strategy] at planned
  by_cases joined : function = .concat
  · subst joined
    obtain ⟨string, bounded⟩ :=
      CharacterString.length_of_concatType (Strategy.result_of_concat planned)
    obtain ⟨length, known, positive⟩ := LogicalType.exists_one_le_length? string
    rw [typeIs]
    exact ⟨length, string, known, positive, fun _ => bounded length known,
      fun other => absurd rfl other⟩
  · obtain ⟨operand, given, resultIs⟩ := Strategy.result_of_changeOfCase planned character joined
    obtain rfl : operands = [operand] := given
    have sameType : call.resultType = operand.type := by
      rw [typeIs, resultIs, List.any_cons, List.any_nil, Bool.or_false]
      rfl
    -- Strings are never widened, so the operand has the root in the signature.
    have roots := Signature.eq_of_accepts accepted fun candidate member =>
      TypeRoot.not_isNumericPrimitive_of_string (List.all_eq_true.1 strings candidate member)
    have string : operand.root.isInAll [.characterString] = true := by
      rw [roots] at strings
      simpa using strings
    obtain ⟨length, known, positive⟩ := LogicalType.exists_one_le_length? string
    rw [sameType]
    exact ⟨length, string, known, positive, fun other => absurd other joined,
      fun _ => ⟨operand, rfl, rfl⟩⟩

/-- The first call of a session is compiled if the overload that the standard catalog chooses gives
it a meaning. -/
theorem exists_compile_standard {operator : Operator} {operands : List Operand}
    {strategy : Strategy} {signature : Signature} {type : LogicalType} {actions : List Action}
    (chosen : (OverloadTable.scan (standardCatalog.registrations .streaming) operator
      (operands.map (·.root))).map (fun resolution =>
        (resolution.overload.strategy, resolution.overload.signature)) = some (strategy, signature))
    (means : strategy.meaning ⟨operator, signature, operands⟩ = .ok (type, actions)) :
    ∃ context journal call after, Context.standard {} = (.ok context, journal) ∧
      (context.session.compileAll []).compile operator operands = (.ok call, after) ∧
        call.resultType = type := by
  obtain ⟨context, journal, built, overloads⟩ := Context.exists_standard {}
  obtain ⟨resolution, scanned, parts⟩ := Option.map_eq_some_iff.1 chosen
  obtain ⟨rfl, rfl⟩ := Prod.mk.inj parts
  have resolved : context.table.resolve operator (operands.map (·.root)) = some resolution := by
    rw [OverloadTable.resolve_eq_scan, overloads]
    exact scanned
  have meant : meaning context.table operator operands = .ok (resolution.kind, type, actions) := by
    rw [meaning, resolved]
    simp only [means]
    rfl
  have empty : context.session.pool.size = 0 := rfl
  obtain ⟨call, after, compiled, -, typeIs⟩ :=
    (faithful_session context).compile_eq_ok meant (by rw [empty]; decide)
  exact ⟨context, journal, call, after, built, compiled, typeIs⟩

/-- The longest strings together are no longer than the greatest length. -/
theorem length_of_compile_concat :
    let longest : LogicalType := ⟨.varchar, .length 4294967295, true, by decide⟩
    let operands : List Operand := [.ofSlot 0 longest, .ofSlot 1 longest.notNull]
    ∃ context journal call after, Context.standard {} = (.ok context, journal) ∧
      (context.session.compileAll []).compile .concat operands = (.ok call, after) ∧
        (Operator.concat, StringFunction.concat) ∈ StandardCatalog.characterFunctions ∧
          ∃ length, call.resultType.length? = some length ∧ 1 ≤ length ∧
            length ≤ CharacterString.maxLength := by
  intro longest operands
  have means : (Strategy.string .concat).meaning ⟨.concat, [.varchar, .varchar], operands⟩ =
      .ok (⟨.varchar, .length 2147483647, true, by decide⟩,
        [.load 0, .load 1, .call Operator.concat.identity 2]) := rfl
  obtain ⟨context, journal, call, after, built, compiled, -⟩ :=
    exists_compile_standard (by decide +kernel) means
  have listed : (Operator.concat, StringFunction.concat) ∈ StandardCatalog.characterFunctions :=
    .tail _ (.tail _ (.head _))
  obtain ⟨length, -, lengthIs, positive, bounded, -⟩ :=
    length_of_compile_string built [] listed compiled
  exact ⟨context, journal, call, after, built, compiled, listed, length, lengthIs, positive,
    bounded rfl⟩

/-- The longest string in upper case is longer than the greatest length. -/
theorem exists_upper_maxLength_lt :
    let longest : LogicalType := ⟨.varchar, .length 4294967295, true, by decide⟩
    ∃ context journal call after, Context.standard {} = (.ok context, journal) ∧
      (context.session.compileAll []).compile .upper [.ofSlot 0 longest] = (.ok call, after) ∧
        call.resultType = longest ∧
          ∃ length, call.resultType.length? = some length ∧
            CharacterString.maxLength < length := by
  intro longest
  have means : (Strategy.string .upper).meaning ⟨.upper, [.varchar], [.ofSlot 0 longest]⟩ =
      .ok (longest, [.load 0, .call Operator.upper.identity 1]) := rfl
  obtain ⟨context, journal, call, after, built, compiled, typeIs⟩ :=
    exists_compile_standard (by decide +kernel) means
  exact ⟨context, journal, call, after, built, compiled, typeIs, 4294967295, by rw [typeIs]; rfl,
    by decide⟩

end Session
end OperatorDispatch
