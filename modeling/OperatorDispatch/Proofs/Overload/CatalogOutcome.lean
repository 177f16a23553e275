import OperatorDispatch.Proofs.Overload.Choice
import OperatorDispatch.Proofs.Overload.FromCatalog

/-!
# What becomes of a catalog

A catalog with an unknown context function gives no table, whatever else is wrong with it.  Without
one, only a repeated key can stand in the way, and only if repetitions are refused.  In the table
that is built the last registration of a key decides how its calls are carried out; since context
functions are registered last, no overload takes the place of one.
-/

namespace OperatorDispatch

open Registration

/-! ## Context functions are known by their operators -/

/-- Whether the operator is one of the seven context functions, under whatever name. -/
def Operator.isContextFunction (operator : Operator) : Bool :=
  TimePoint.all.any fun point => point.operator.same operator

namespace ContextFunction

/-- Each time point stands in one row, beside the operator that yields it. -/
theorem known_eq_operator :
    known.map (·.2.1) = TimePoint.all ∧ ∀ row ∈ known, row.1 = row.2.1.operator := by
  decide

theorem isSome_resolve? (operator : Operator) (mode : ExecutionMode) :
    (resolve? operator mode).isSome = operator.isContextFunction := by
  obtain ⟨points, operators⟩ := known_eq_operator
  rw [resolve?, Option.isSome_map, List.isSome_find?, Operator.isContextFunction, ← points,
    List.any_map, Bool.eq_iff_iff, List.any_eq_true, List.any_eq_true]
  exact exists_congr fun row => and_congr_right fun member => by
    rw [Function.comp_apply, ← operators row member]

/-- The name of an operator does not matter. -/
theorem resolve?_congr {operator other : Operator} (mode : ExecutionMode)
    (same : operator.identity = other.identity) :
    resolve? operator mode = resolve? other mode := by
  simp only [resolve?, Operator.same, same]

theorem of_resolve? {operator : Operator} {mode : ExecutionMode} {function : ContextFunction}
    (found : resolve? operator mode = some function) :
    function.operator.same operator = true ∧ function.timePoint.operator.same operator = true ∧
      function.mode = mode := by
  obtain ⟨⟨caller, point, rowStable⟩, first, rfl⟩ := Option.map_eq_some_iff.1 found
  have yields : caller = point.operator :=
    known_eq_operator.2 _ (List.mem_of_find?_eq_some first)
  have same := List.find?_some first
  exact ⟨same, yields ▸ same, rfl⟩

end ContextFunction

variable {σ : Type}

/-! ## The last registration of a key -/

namespace Registration

/-- The strategy on which all later registrations of a key agree is its last one. -/
theorem lastStrategy_append_of_mem {earlier later : List (Overload σ)} {overload : Overload σ}
    {strategy : σ} (registered : overload.key ∈ keys later)
    (agree : ∀ call ∈ later, call.key = overload.key → call.strategy = strategy) :
    lastStrategy (earlier ++ later) overload = strategy := by
  have backwards : overload.key ∈ keys later.reverse := by
    rwa [keys, List.map_reverse, List.mem_reverse]
  obtain ⟨last, found⟩ := (mem_keys_iff_find? _ _).1 backwards
  have member : last ∈ later := List.mem_reverse.1 (List.mem_of_find?_eq_some found)
  have same : last.key = overload.key := by simpa using List.find?_some found
  rw [lastStrategy, List.reverse_append, List.find?_append, found]
  exact agree last member same

theorem withLastStrategy_of_last {before later : List (Overload σ)} {entry first : Overload σ}
    (last : entry.key ∉ keys later) (same : first.key = entry.key)
    (found : (before ++ entry :: later).find? (fun call => call.key = entry.key) = some first) :
    (withLastStrategy (before ++ entry :: later) first).strategy = entry.strategy ∧
      (entry.key ∉ keys before → withLastStrategy (before ++ entry :: later) first = entry) := by
  -- Of the registrations from this one on, none but this one has the key.
  have strategy : lastStrategy (before ++ entry :: later) first = entry.strategy := by
    refine lastStrategy_append_of_mem (same ▸ .head _) fun call member called => ?_
    rcases List.mem_cons.1 member with rfl | further
    · rfl
    · have equal : call.key = entry.key := called.trans same
      exact absurd (equal ▸ List.mem_map_of_mem further) last
  refine ⟨strategy, fun new => ?_⟩
  have missed : before.find? (fun call => call.key = entry.key) = none := by
    rw [List.find?_eq_none]
    intro call member called
    exact new (of_decide_eq_true called ▸ List.mem_map_of_mem member)
  have here : (before ++ entry :: later).find? (fun call => call.key = entry.key) =
      some entry := by
    rw [List.find?_append, missed]
    simp
  rw [Option.some.inj (found.symm.trans here)] at strategy ⊢
  rw [withLastStrategy, strategy]

end Registration

theorem OverloadTable.resolve_of_settled {table : OverloadTable σ} {calls : List (Overload σ)}
    (held : table.overloads = settled calls) {operator : Operator} {roots : List TypeRoot}
    (registered : (⟨operator.identity, roots⟩ : CallKey) ∈ keys calls) :
    ∃ first, calls.find? (fun call => call.key = ⟨operator.identity, roots⟩) = some first ∧
      first.key = ⟨operator.identity, roots⟩ ∧
      table.resolve operator roots = some ⟨withLastStrategy calls first, .exact⟩ := by
  obtain ⟨first, found⟩ := (mem_keys_iff_find? _ _).1 registered
  refine ⟨first, found, by simpa using List.find?_some found, ?_⟩
  rw [resolve, get?, held, find?_settled, found]
  rfl

variable [OfContextFunction σ]

/-! ## Unknown context functions -/

namespace TableBuilder

theorem registerContextFunction_of_unknown (builder : TableBuilder σ) {operator : Operator}
    (unknown : operator.isContextFunction = false) :
    builder.registerContextFunction operator =
      .error (.unknownContextFunction operator.name) := by
  have missed : ContextFunction.resolve? operator builder.settings.mode = none := by
    rw [← Option.not_isSome_iff_eq_none, ContextFunction.isSome_resolve?, unknown]
    exact Bool.false_ne_true
  rw [registerContextFunction, ContextFunction.resolve, missed]
  rfl

theorem exists_registerContextFunction (builder : TableBuilder σ) {operator : Operator}
    (known : operator.isContextFunction = true) :
    ∃ after, builder.registerContextFunction operator = .ok after := by
  rw [← ContextFunction.isSome_resolve? operator builder.settings.mode] at known
  obtain ⟨function, found⟩ := Option.isSome_iff_exists.1 known
  rw [registerContextFunction, ContextFunction.resolve, found]
  exact ⟨_, rfl⟩

/-- The registration stops at the first unknown context function. -/
theorem registerContextFunctions_of_unknown (builder : TableBuilder σ)
    {operators : List Operator} {unknown : Operator}
    (first : operators.find? (fun operator => !operator.isContextFunction) = some unknown) :
    ∃ after, builder.registerContextFunctions operators =
      (after, some (.unknownContextFunction unknown.name)) := by
  induction operators generalizing builder with
  | nil => contradiction
  | cons operator operators induction =>
      rw [registerContextFunctions]
      cases known : operator.isContextFunction with
      | true =>
          obtain ⟨after, registered⟩ := exists_registerContextFunction builder known
          rw [List.find?_cons_of_neg (by simp [known])] at first
          rw [registered]
          exact induction after first
      | false =>
          rw [List.find?_cons_of_pos (by simp [known])] at first
          rw [registerContextFunction_of_unknown builder known, Option.some.inj first]
          exact ⟨builder, rfl⟩

end TableBuilder

/-! ## Tables of catalogs -/

namespace Catalog

/-- The keys of the context functions, which have no operands. -/
def contextKeys (catalog : Catalog σ) : List CallKey :=
  catalog.contextFunctions.map fun operator => ⟨operator.identity, []⟩

/-- All keys of the catalog, in the order of registration. -/
def keys (catalog : Catalog σ) : List CallKey :=
  Registration.keys catalog.overloads ++ catalog.contextKeys

theorem keys_registrations {catalog : Catalog σ} {mode : ExecutionMode}
    (known : ∀ operator ∈ catalog.contextFunctions,
      (ContextFunction.resolve? operator mode).isSome = true) :
    Registration.keys (catalog.registrations mode) = catalog.keys := by
  rw [registrations, Registration.keys, List.map_append]
  exact congrArg _ (keys_contextOverloads known)

end Catalog

/-- The table carries out the calls of a catalog. -/
structure OverloadTable.Serves (table : OverloadTable σ) (mode : ExecutionMode)
    (catalog : Catalog σ) : Prop where
  /-- A context function is matched exactly, and its strategy is made for the operator and the
  mode. -/
  contextFunction : ∀ operator ∈ catalog.contextFunctions,
    ∃ overload function, table.resolve operator [] = some ⟨overload, .exact⟩ ∧
      overload.strategy = OfContextFunction.ofContextFunction function ∧
        function.operator.same operator = true ∧
          function.timePoint.operator.same operator = true ∧ function.mode = mode
  /-- An overload whose key is not registered again is matched exactly by its own signature.  What
  is found is the overload itself, unless the key was registered before under another name. -/
  overload : ∀ before entry after, catalog.overloads = before ++ entry :: after →
    entry.key ∉ Registration.keys after → entry.key ∉ catalog.contextKeys →
    ∃ held, table.resolve entry.operator entry.signature = some ⟨held, .exact⟩ ∧
      held.operator.same entry.operator = true ∧ held.signature = entry.signature ∧
        held.strategy = entry.strategy ∧
          (entry.key ∉ Registration.keys before → held = entry)

theorem strategy_of_mem_contextOverloads {mode : ExecutionMode} {operators : List Operator}
    {operator : Operator} {function : ContextFunction}
    (found : ContextFunction.resolve? operator mode = some function) {call : Overload σ}
    (member : call ∈ contextOverloads mode operators)
    (same : call.key = ⟨operator.identity, []⟩) :
    call.strategy = OfContextFunction.ofContextFunction function := by
  obtain ⟨other, -, known⟩ := List.mem_filterMap.1 member
  obtain ⟨otherFunction, otherFound, rfl⟩ := Option.map_eq_some_iff.1 known
  have identity : other.identity = operator.identity := congrArg CallKey.operator same
  rw [ContextFunction.resolve?_congr mode identity, found] at otherFound
  rw [Option.some.inj otherFound]
  rfl

namespace OverloadTable

theorem serves_of_settled {table : OverloadTable σ} {mode : ExecutionMode} {catalog : Catalog σ}
    (known : ∀ operator ∈ catalog.contextFunctions,
      (ContextFunction.resolve? operator mode).isSome = true)
    (held : table.overloads = settled (catalog.registrations mode)) :
    table.Serves mode catalog where
  contextFunction operator listed := by
    have registered : (⟨operator.identity, []⟩ : CallKey) ∈ keys
        (contextOverloads mode catalog.contextFunctions : List (Overload σ)) := by
      rw [keys_contextOverloads known]
      exact List.mem_map_of_mem listed
    have somewhere : (⟨operator.identity, []⟩ : CallKey) ∈
        keys (catalog.registrations mode) := by
      rw [Catalog.registrations, keys, List.map_append]
      exact List.mem_append_right _ registered
    obtain ⟨function, found⟩ := Option.isSome_iff_exists.1 (known operator listed)
    obtain ⟨first, -, key, resolved⟩ := resolve_of_settled held somewhere
    refine ⟨_, function, resolved, ?_, ContextFunction.of_resolve? found⟩
    refine lastStrategy_append_of_mem (key ▸ registered) fun call member same => ?_
    exact strategy_of_mem_contextOverloads found member (same.trans key)
  overload before entry after listed last free := by
    let later : List (Overload σ) := after ++ contextOverloads mode catalog.contextFunctions
    have split : catalog.registrations mode = before ++ entry :: later := by
      simp [Catalog.registrations, listed, later]
    have absent : entry.key ∉ keys later := by
      have contextKeys : keys (contextOverloads mode catalog.contextFunctions : List (Overload σ)) =
          catalog.contextKeys := keys_contextOverloads known
      rw [← contextKeys] at free
      rw [keys, List.map_append, List.mem_append, not_or]
      exact ⟨last, free⟩
    have somewhere : entry.key ∈ keys (before ++ entry :: later) := by
      rw [keys, List.map_append]
      exact List.mem_append_right _ (.head _)
    obtain ⟨first, found, key, resolved⟩ := resolve_of_settled (split ▸ held) somewhere
    obtain ⟨strategy, same⟩ := withLastStrategy_of_last absent key found
    obtain ⟨identity, signature⟩ := CallKey.mk.inj key
    exact ⟨_, resolved, Operator.same_iff.2 identity, signature, strategy, same⟩

/-- An unknown context function prevents the table, whatever else is wrong with the catalog. -/
theorem ofCatalog_of_unknown (settings : Settings) {catalog : Catalog σ} {unknown : Operator}
    (first : catalog.contextFunctions.find? (fun operator => !operator.isContextFunction) =
      some unknown) :
    (ofCatalog settings catalog).1 = .error (.unknownContextFunction unknown.name) := by
  obtain ⟨after, stopped⟩ := TableBuilder.registerContextFunctions_of_unknown
    ({ settings : TableBuilder σ }.registerAll catalog.overloads) first
  rw [TableBuilder.registerAll] at stopped
  simp only [ofCatalog, stopped]

/-- What becomes of a catalog.  The first unknown context function is the error, if there is one.
Otherwise a repeated key is the error, if repetitions are refused.  Otherwise there is a table, and
it carries out every context function and every overload whose key is not registered again. -/
theorem ofCatalog_cases (settings : Settings) (catalog : Catalog σ) :
    (∃ unknown,
      catalog.contextFunctions.find? (fun operator => !operator.isContextFunction) =
        some unknown ∧
      (ofCatalog settings catalog).1 = .error (.unknownContextFunction unknown.name)) ∨
    ((∀ operator ∈ catalog.contextFunctions, operator.isContextFunction = true) ∧
      settings.duplicates = .reject ∧ ¬ catalog.keys.Nodup ∧
      ∃ heading, TableBuilder.FirstRepeat (catalog.registrations settings.mode) heading ∧
        (ofCatalog settings catalog).1 = .error (.duplicateOverload heading)) ∨
    ((∀ operator ∈ catalog.contextFunctions, operator.isContextFunction = true) ∧
      (settings.duplicates = .overwrite ∨ catalog.keys.Nodup) ∧
      ∃ table, (ofCatalog settings catalog).1 = .ok table ∧
        table.Serves settings.mode catalog) := by
  cases first : catalog.contextFunctions.find? fun operator => !operator.isContextFunction with
  | some unknown => exact .inl ⟨unknown, rfl, ofCatalog_of_unknown settings first⟩
  | none =>
      right
      have known : ∀ operator ∈ catalog.contextFunctions, operator.isContextFunction = true := by
        simpa using first
      have resolved : ∀ operator ∈ catalog.contextFunctions,
          (ContextFunction.resolve? operator settings.mode).isSome = true := by
        intro operator listed
        rw [ContextFunction.isSome_resolve?, known operator listed]
      obtain ⟨builder, finished, same, records⟩ :=
        ofCatalog_eq_finish settings catalog resolved
      have outcome := records.build_cases
      rw [same, Catalog.keys_registrations resolved] at outcome
      rw [finished, TableBuilder.finish]
      rcases outcome with ⟨refused, repeated, heading, first, failed⟩ | ⟨accepted, built⟩
      · rw [failed]
        exact .inl ⟨known, refused, repeated, heading, first, rfl⟩
      · rw [built]
        exact .inr ⟨known, accepted, _, rfl, serves_of_settled resolved records.overloads_eq⟩

end OverloadTable
end OperatorDispatch
