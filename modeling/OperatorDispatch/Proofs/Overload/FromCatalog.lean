import OperatorDispatch.Proofs.Overload.Construction

/-!
# Tables of catalogs

A catalog registers its overloads and then its context functions, each of them as an overload
without operands.  If all context functions are known and no key repeats, the table is built under
either policy and holds exactly these registrations.
-/

namespace OperatorDispatch

open Registration

variable {σ : Type} [OfContextFunction σ]

/-- The overload as which a context function is registered. -/
def ContextFunction.overload (operator : Operator) (function : ContextFunction) : Overload σ :=
  { operator, signature := [], strategy := OfContextFunction.ofContextFunction function }

/-- The overloads as which operators are registered in a mode, unknown ones left out. -/
def contextOverloads (mode : ExecutionMode) (operators : List Operator) : List (Overload σ) :=
  operators.filterMap fun operator =>
    (ContextFunction.resolve? operator mode).map (ContextFunction.overload operator)

/-- Everything that the catalog registers in a mode, in order. -/
def Catalog.registrations (catalog : Catalog σ) (mode : ExecutionMode) : List (Overload σ) :=
  catalog.overloads ++ contextOverloads mode catalog.contextFunctions

theorem Catalog.forall_mem_registrations {catalog : Catalog σ} {mode : ExecutionMode}
    {holds : Overload σ → Prop} (listed : ∀ overload ∈ catalog.overloads, holds overload)
    (context : ∀ operator function, holds (ContextFunction.overload operator function)) :
    ∀ overload ∈ catalog.registrations mode, holds overload := by
  intro overload member
  rcases List.mem_append.1 member with first | last
  · exact listed overload first
  · obtain ⟨operator, -, found⟩ := List.mem_filterMap.1 last
    obtain ⟨function, -, rfl⟩ := Option.map_eq_some_iff.1 found
    exact context operator function

theorem keys_contextOverloads {mode : ExecutionMode} {operators : List Operator}
    (known : ∀ operator ∈ operators, (ContextFunction.resolve? operator mode).isSome = true) :
    keys (contextOverloads mode operators : List (Overload σ)) =
      operators.map fun operator => ⟨operator.identity, []⟩ := by
  induction operators with
  | nil => rfl
  | cons operator operators induction =>
      obtain ⟨function, found⟩ := Option.isSome_iff_exists.1 (known operator (.head _))
      have rest := induction fun later member => known later (.tail _ member)
      rw [contextOverloads, List.filterMap_cons, found, Option.map_some, List.map_cons, ← rest]
      rfl

namespace TableBuilder

variable {builder : TableBuilder σ} {calls : List (Overload σ)}

theorem Records.registerContextFunction (records : builder.Records calls) {operator : Operator}
    {function : ContextFunction}
    (found : ContextFunction.resolve? operator builder.settings.mode = some function) :
    ∃ after, builder.registerContextFunction operator = .ok after ∧
      after.settings = builder.settings ∧
        after.Records (calls ++ [function.overload operator]) := by
  let noted : TableBuilder σ :=
    { builder with
      contextFunctions := builder.contextFunctions + 1
      journal := builder.journal.push (.contextFunction { function with operator }) }
  -- The count and the journal say nothing about the overloads.
  have kept : noted.Records calls :=
    ⟨records.overloads_eq, records.counted, records.nodup_of_nil, records.firstRepeat⟩
  refine ⟨noted.register ⟨operator, []⟩ (OfContextFunction.ofContextFunction function), ?_,
    settings_register noted _ _, kept.register (function.overload operator)⟩
  rw [TableBuilder.registerContextFunction, ContextFunction.resolve, found]
  rfl

theorem Records.registerContextFunctions (records : builder.Records calls)
    (operators : List Operator)
    (known : ∀ operator ∈ operators,
      (ContextFunction.resolve? operator builder.settings.mode).isSome = true) :
    ∃ after, builder.registerContextFunctions operators = (after, none) ∧
      after.settings = builder.settings ∧
        after.Records (calls ++ contextOverloads builder.settings.mode operators) := by
  induction operators generalizing builder calls with
  | nil => exact ⟨builder, rfl, rfl, by simpa [contextOverloads] using records⟩
  | cons operator operators induction =>
      obtain ⟨function, found⟩ := Option.isSome_iff_exists.1 (known operator (.head _))
      obtain ⟨middle, registered, sameSettings, middleRecords⟩ :=
        records.registerContextFunction found
      rw [← sameSettings] at known found
      obtain ⟨after, rest, restSettings, afterRecords⟩ :=
        induction middleRecords fun later member => known later (.tail _ member)
      refine ⟨after, ?_, restSettings.trans sameSettings, ?_⟩
      · rw [TableBuilder.registerContextFunctions, registered]
        exact rest
      · rw [List.append_assoc] at afterRecords
        rw [← sameSettings, contextOverloads, List.filterMap_cons, found]
        exact afterRecords

end TableBuilder

/-- A catalog of known context functions leaves a builder with all its registrations. -/
theorem OverloadTable.ofCatalog_eq_finish (settings : Settings) (catalog : Catalog σ)
    (known : ∀ operator ∈ catalog.contextFunctions,
      (ContextFunction.resolve? operator settings.mode).isSome = true) :
    ∃ builder : TableBuilder σ, ofCatalog settings catalog = builder.finish ∧
      builder.settings = settings ∧ builder.Records (catalog.registrations settings.mode) := by
  have records := TableBuilder.records_registerAll settings catalog.overloads
  have sameSettings := TableBuilder.settings_registerAll { settings } catalog.overloads
  obtain ⟨builder, registered, restSettings, builderRecords⟩ :=
    records.registerContextFunctions catalog.contextFunctions (by rw [sameSettings]; exact known)
  rw [sameSettings] at restSettings builderRecords
  refine ⟨builder, ?_, restSettings, builderRecords⟩
  rw [TableBuilder.registerAll] at registered
  simp only [ofCatalog, registered]

theorem OverloadTable.ofCatalog_of_nodup (settings : Settings) (catalog : Catalog σ)
    (known : ∀ operator ∈ catalog.contextFunctions,
      (ContextFunction.resolve? operator settings.mode).isSome = true)
    (distinct : (keys (catalog.registrations settings.mode)).Nodup) :
    ∃ table journal, ofCatalog settings catalog = (.ok table, journal) ∧
      table.overloads = catalog.registrations settings.mode ∧ table.mode = settings.mode := by
  obtain ⟨builder, finished, sameSettings, records⟩ :=
    ofCatalog_eq_finish settings catalog known
  have unrepeated : builder.repeats = [] := records.repeats_eq_nil_iff.2 distinct
  let table : OverloadTable σ := { overloads := builder.overloads, mode := builder.settings.mode }
  have built : builder.build = .ok table := TableBuilder.build_eq_ok (.inr unrepeated)
  refine ⟨table, builder.journal.push (.tableBuilt (builder.summary table)), ?_, ?_, ?_⟩
  · rw [finished, TableBuilder.finish, built]
  · exact records.overloads_eq.trans (settled_of_nodup distinct)
  · exact congrArg Settings.mode sameSettings

end OperatorDispatch
