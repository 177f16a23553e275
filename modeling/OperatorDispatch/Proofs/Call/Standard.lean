import OperatorDispatch.Proofs.Call.Accounting
import OperatorDispatch.Proofs.Call.Suitable
import OperatorDispatch.Proofs.Overload.FromCatalog

/-!
# Calls against the standard catalog

The context of the standard catalog is always built.  Its overloads suit their signatures, so a call
fails for one of three causes only: no overload accepts it, a slot has no name of one byte, or the
pool has no room for its constants.
-/

namespace OperatorDispatch

open Registration

/-! ## The table of the standard catalog -/

namespace Context

theorem isSome_resolve?_standardCatalog (mode : ExecutionMode) :
    ∀ operator ∈ standardCatalog.contextFunctions,
      (ContextFunction.resolve? operator mode).isSome = true := by
  cases mode <;> decide +kernel

theorem nodup_keys_standardCatalog (mode : ExecutionMode) :
    (keys (standardCatalog.registrations mode)).Nodup := by
  rw [Catalog.registrations, keys, List.map_append]
  change (keys standardCatalog.overloads ++ keys (contextOverloads mode _)).Nodup
  rw [keys_contextOverloads (isSome_resolve?_standardCatalog mode)]
  decide +kernel

/-- Whatever the settings are, the context of the standard catalog is built, and its table holds the
registrations of the catalog. -/
theorem exists_standard (settings : Settings) :
    ∃ context journal, standard settings = (.ok context, journal) ∧
      context.table.overloads = standardCatalog.registrations settings.mode := by
  obtain ⟨table, journal, built, overloads, -⟩ := OverloadTable.ofCatalog_of_nodup settings
    standardCatalog (isSome_resolve?_standardCatalog settings.mode)
    (nodup_keys_standardCatalog settings.mode)
  refine ⟨{ settings, table }, journal.push (.contextReady table.size table.mode), ?_, overloads⟩
  rw [standard, ofCatalog, built]

theorem overloads_of_standard {settings : Settings} {context : Context}
    {journal : Array Event} (built : standard settings = (.ok context, journal)) :
    context.table.overloads = standardCatalog.registrations settings.mode := by
  obtain ⟨other, otherJournal, otherBuilt, overloads⟩ := exists_standard settings
  rw [built] at otherBuilt
  cases otherBuilt
  exact overloads

end Context

theorem Strategy.suits_registrations (mode : ExecutionMode) :
    ∀ overload ∈ standardCatalog.registrations mode,
      overload.strategy.suits overload.signature = true :=
  Catalog.forall_mem_registrations suits_standardCatalog fun _ _ => rfl

/-! ## Outcomes -/

/-- Against a table whose overloads are suitable, a call fails exactly if no overload accepts it, if
a slot has no name, or if its constants have no room. -/
theorem Session.compile_of_suits {session : Session} (faithful : session.Faithful)
    (bounded : session.pool.size ≤ ConstantPool.addressable)
    (suits : ∀ overload ∈ session.table.overloads,
      overload.strategy.suits overload.signature = true)
    {operator : Operator} {operands : List Operand} {resolution : Resolution Strategy}
    (chosen : session.table.resolve operator (operands.map (·.root)) = some resolution) :
    let demands := resolution.overload.strategy.demands operator operands
    ((∃ call, (session.compile operator operands).1 = .ok call) ↔
        Demand.Fit session.pool demands) ∧
      ∀ cause, (session.compile operator operands).1 = .error cause →
        ∃ earlier demand later, demands = earlier ++ demand :: later ∧
          Demand.Fit session.pool earlier ∧ ¬Demand.Fit session.pool (earlier ++ [demand]) ∧
            cause = demand.refusal := by
  intro demands
  obtain ⟨member, accepted⟩ := OverloadTable.accepts_of_resolve chosen
  obtain ⟨plan, planned⟩ :=
    Strategy.exists_plan (suits resolution.overload member) accepted operator
  obtain ⟨outcome, -⟩ := faithful.compile_eq operator operands
  rw [outcome]
  exact ⟨OverloadTable.compileAnew_ok_iff bounded chosen planned, fun cause failed =>
    OverloadTable.exists_first_unmet_of_compileAnew bounded chosen planned failed⟩

theorem Session.compile_of_none {session : Session} (faithful : session.Faithful)
    {operator : Operator} {operands : List Operand}
    (missed : session.table.resolve operator (operands.map (·.root)) = none) :
    (session.compile operator operands).1 =
      .error (.noMatchingSignature operator.name (operands.map (·.type))) := by
  rw [(faithful.compile_eq operator operands).1, OverloadTable.compileAnew_of_none missed]

/-- In every session over the standard catalog a call has no matching signature exactly if the table
chooses no overload.  Otherwise it is compiled exactly if all its slots have a number up to 255 and
the constants that the pool lacks, each counted once, are at most as many as the positions that are
left; and if it is not, the cause is the first slot or constant, in the order of emission, with
which this no longer holds. -/
theorem Session.compile_standard (settings : Settings)
    (history : List (Operator × List Operand)) (operator : Operator) (operands : List Operand) :
    ∃ context journal, Context.standard settings = (.ok context, journal) ∧
      let session := context.session.compileAll history
      let outcome := (session.compile operator operands).1
      let chosen := context.table.resolve operator (operands.map (·.root))
      (outcome = .error (.noMatchingSignature operator.name (operands.map (·.type))) ↔
          chosen = none) ∧
        ∀ resolution, chosen = some resolution →
          let strategy := resolution.overload.strategy
          ((∃ call, outcome = .ok call) ↔
              (∀ operand ∈ operands, ∀ number, operand.source = .slot number → number ≤ 255) ∧
                (session.pool.missing (strategy.constants operator operands)).card ≤
                  ConstantPool.addressable - session.pool.size) ∧
            ∀ cause, outcome = .error cause →
              ∃ earlier demand later,
                strategy.demands operator operands = earlier ++ demand :: later ∧
                  Demand.Fit session.pool earlier ∧
                    ¬Demand.Fit session.pool (earlier ++ [demand]) ∧ cause = demand.refusal := by
  obtain ⟨context, journal, built, overloads⟩ := Context.exists_standard settings
  refine ⟨context, journal, built, ?_⟩
  intro session outcome chosen
  obtain ⟨faithful, sameTable⟩ := (faithful_session context).compileAll history
  have suits : ∀ overload ∈ session.table.overloads,
      overload.strategy.suits overload.signature = true := by
    rw [sameTable]
    exact overloads ▸ Strategy.suits_registrations settings.mode
  have bounded := size_le_of_context context history
  refine ⟨⟨?_, ?_⟩, ?_⟩
  · intro failed
    cases found : chosen with
    | none => rfl
    | some resolution =>
        obtain ⟨-, unmet⟩ :=
          compile_of_suits faithful bounded suits (by rw [sameTable]; exact found)
        obtain ⟨-, demand, -, -, -, -, cause⟩ := unmet _ failed
        cases demand <;> cases cause
  · intro missed
    exact compile_of_none faithful (by rw [sameTable]; exact missed)
  · intro resolution found strategy
    rw [← Strategy.fit_demands_iff]
    exact compile_of_suits faithful bounded suits (by rw [sameTable]; exact found)

end OperatorDispatch
