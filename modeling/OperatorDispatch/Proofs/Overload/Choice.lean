import OperatorDispatch.Call.Strategy
import OperatorDispatch.Overload.Resolution
import OperatorDispatch.Proofs.Overload.Positions
import OperatorDispatch.Proofs.Overload.Registration
import OperatorDispatch.Proofs.Types.Widening

/-!
# The choice of an overload is a plain scan

A choice looks up a key, takes a shortcut for calls without operands and visits only the overloads
of the operator that is called.  None of this can be noticed: every choice is the one that a scan
of all overloads makes.
-/

namespace OperatorDispatch

variable {σ : Type}

/-! ## Any use of a builder -/

/-- A step of the use of a builder. -/
inductive BuilderStep (σ : Type) where
  /-- An overload is registered. -/
  | overload (call : Overload σ)
  /-- A context function is registered; an unknown one leaves the builder as it is. -/
  | contextFunction (operator : Operator)

namespace TableBuilder

open Registration

variable [OfContextFunction σ]

/-- The builder after a step. -/
def perform (builder : TableBuilder σ) : BuilderStep σ → TableBuilder σ
  | .overload call => builder.register call.toHeading call.strategy
  | .contextFunction operator =>
      match builder.registerContextFunction operator with
      | .ok builder => builder
      | .error _ => builder

/-- The builder after a sequence of steps. -/
def run (settings : Settings) (steps : List (BuilderStep σ)) : TableBuilder σ :=
  steps.foldl perform { settings }

theorem registerContextFunction_eq_ok {builder after : TableBuilder σ} {operator : Operator}
    (registered : builder.registerContextFunction operator = .ok after) :
    ∃ (noted : TableBuilder σ) (strategy : σ), noted.overloads = builder.overloads ∧
      after = noted.register ⟨operator, []⟩ strategy := by
  rw [registerContextFunction] at registered
  cases resolved : ContextFunction.resolve operator builder.settings.mode with
  | error cause => simp [resolved, bind, Except.bind] at registered
  | ok function =>
      simp only [resolved, bind, Except.bind, pure, Except.pure, Except.ok.injEq] at registered
      refine ⟨_, _, ?_, registered.symm⟩
      rfl

theorem nodup_keys_perform {builder : TableBuilder σ} (step : BuilderStep σ)
    (distinct : (keys builder.overloads).Nodup) :
    (keys (builder.perform step).overloads).Nodup := by
  cases step with
  | overload call => exact nodup_keys_register call.toHeading call.strategy distinct
  | contextFunction operator =>
      rw [perform]
      cases registered : builder.registerContextFunction operator with
      | error cause => exact distinct
      | ok after =>
          obtain ⟨noted, strategy, same, rfl⟩ := registerContextFunction_eq_ok registered
          apply nodup_keys_register
          rw [same]
          exact distinct

/-- A builder never holds a key twice. -/
theorem nodup_keys_run (settings : Settings) (steps : List (BuilderStep σ)) :
    (keys (run settings steps).overloads).Nodup := by
  induction steps using List.reverseRecOn with
  | nil => exact List.nodup_nil
  | append_singleton steps step induction =>
      rw [run, List.foldl_concat]
      exact nodup_keys_perform step induction

end TableBuilder

theorem TableBuilder.eq_of_build {builder : TableBuilder σ} {table : OverloadTable σ}
    (built : builder.build = .ok table) :
    table = { overloads := builder.overloads, mode := builder.settings.mode } := by
  rw [build] at built
  split at built
  · contradiction
  · exact (Except.ok.inj built).symm

/-! ## The plain scan -/

namespace OverloadTable

/-- The choice made by a scan of all overloads: the overload with the key of the call, or else the
first one of the operator that accepts the operands. -/
def scan (overloads : List (Overload σ)) (operator : Operator) (roots : List TypeRoot) :
    Option (Resolution σ) :=
  match overloads.find? fun overload => overload.key = ⟨operator.identity, roots⟩ with
  | some overload => some ⟨overload, .exact⟩
  | none =>
      (overloads.find? fun overload =>
        overload.operator.same operator && overload.signature.accepts roots).map
          fun overload => ⟨overload, .approximate⟩

theorem firstAccepting?_eq_find? (table : OverloadTable σ) (operator : Operator)
    (roots : List TypeRoot) :
    table.firstAccepting? operator roots =
      table.overloads.find? fun overload =>
        overload.operator.same operator && overload.signature.accepts roots := by
  rw [firstAccepting?, overloadsOf_eq_filter, List.find?_filter]
  simp only [Bool.decide_and, Bool.decide_eq_true]

theorem signature_ne_of_get?_eq_none {table : OverloadTable σ} {operator : Operator}
    {roots : List TypeRoot} (missed : table.get? operator roots = none) {overload : Overload σ}
    (member : overload ∈ table.overloads) (same : overload.operator.same operator = true) :
    overload.signature ≠ roots := by
  intro equal
  have differs := List.find?_eq_none.1 missed overload member
  have identity : overload.operator.identity = operator.identity := by
    simpa [Operator.same_eq_decide] using same
  simp [Heading.key, identity, equal] at differs

theorem firstAccepting?_nil {table : OverloadTable σ} {operator : Operator}
    (missed : table.get? operator [] = none) : table.firstAccepting? operator [] = none := by
  rw [firstAccepting?_eq_find?, List.find?_eq_none]
  intro overload member accepted
  obtain ⟨same, accepts⟩ := (Bool.and_eq_true _ _).mp accepted
  have empty : overload.signature = [] :=
    List.length_eq_zero_iff.1 (Signature.length_eq_of_accepts accepts)
  exact signature_ne_of_get?_eq_none missed member same empty

/-- Neither the positions of the operator nor the shortcut for calls without operands change the
choice. -/
theorem resolve_eq_scan (table : OverloadTable σ) (operator : Operator) (roots : List TypeRoot) :
    table.resolve operator roots = scan table.overloads operator roots := by
  rw [resolve, scan, ← firstAccepting?_eq_find?, ← get?]
  cases exact : table.get? operator roots with
  | some overload => rfl
  | none =>
      cases roots with
      | nil => simp [firstAccepting?_nil exact]
      | cons root roots => rfl

theorem get?_eq_some_of_mem {table : OverloadTable σ}
    (distinct : (Registration.keys table.overloads).Nodup) {overload : Overload σ}
    (member : overload ∈ table.overloads) {operator : Operator} {roots : List TypeRoot}
    (called : overload.key = ⟨operator.identity, roots⟩) :
    table.get? operator roots = some overload := by
  rw [get?]
  cases found : table.overloads.find? fun held => held.key = ⟨operator.identity, roots⟩ with
  | none =>
      have differs := List.find?_eq_none.1 found overload member
      simp [called] at differs
  | some held =>
      have heldKey : held.key = ⟨operator.identity, roots⟩ := by
        simpa using List.find?_some found
      rw [List.inj_on_of_nodup_map distinct (List.mem_of_find?_eq_some found) member
        (heldKey.trans called.symm)]

theorem accepts_of_scan {overloads : List (Overload σ)} {operator : Operator}
    {roots : List TypeRoot} {resolution : Resolution σ}
    (chosen : scan overloads operator roots = some resolution) :
    resolution.overload ∈ overloads ∧ resolution.overload.operator.same operator = true ∧
      resolution.overload.signature.accepts roots = true := by
  rw [scan] at chosen
  cases exact : overloads.find? fun overload => overload.key = ⟨operator.identity, roots⟩ with
  | some overload =>
      rw [exact] at chosen
      have held : overload.key = ⟨operator.identity, roots⟩ := by
        simpa using List.find?_some exact
      obtain ⟨identity, signature⟩ := CallKey.mk.inj held
      rw [← Option.some.inj chosen]
      refine ⟨List.mem_of_find?_eq_some exact, ?_, ?_⟩
      · simpa [Operator.same_eq_decide] using identity
      · rw [signature]
        exact Signature.accepts_self roots
  | none =>
      rw [exact] at chosen
      obtain ⟨overload, found, rfl⟩ := Option.map_eq_some_iff.1 chosen
      have accepted := List.find?_some found
      rw [Bool.and_eq_true] at accepted
      exact ⟨List.mem_of_find?_eq_some found, accepted⟩

theorem exists_scan_iff (overloads : List (Overload σ)) (operator : Operator)
    (roots : List TypeRoot) :
    (∃ resolution, scan overloads operator roots = some resolution) ↔
      ∃ overload ∈ overloads, overload.operator.same operator = true ∧
        overload.signature.accepts roots = true := by
  constructor
  · rintro ⟨resolution, chosen⟩
    exact ⟨_, accepts_of_scan chosen⟩
  · rintro ⟨overload, member, same, accepted⟩
    rw [scan]
    split
    · exact ⟨_, rfl⟩
    · cases found : overloads.find? fun overload =>
          overload.operator.same operator && overload.signature.accepts roots with
      | none => exact absurd (List.find?_eq_none.1 found overload member) (by simp [same, accepted])
      | some first => exact ⟨_, rfl⟩

/-- A choice is the overload for exactly the roots of the operands or, where there is none, the
first one that accepts them. -/
theorem resolve_cases {table : OverloadTable σ} {operator : Operator} {roots : List TypeRoot}
    {resolution : Resolution σ} (chosen : table.resolve operator roots = some resolution) :
    (resolution.kind = .exact ∧ table.get? operator roots = some resolution.overload) ∨
      (resolution.kind = .approximate ∧ table.get? operator roots = none ∧
        table.firstAccepting? operator roots = some resolution.overload) := by
  rw [resolve_eq_scan, scan, ← firstAccepting?_eq_find?, ← get?] at chosen
  cases exact : table.get? operator roots with
  | some overload =>
      rw [exact] at chosen
      cases chosen
      exact .inl ⟨rfl, rfl⟩
  | none =>
      rw [exact] at chosen
      obtain ⟨overload, found, rfl⟩ := Option.map_eq_some_iff.1 chosen
      exact .inr ⟨rfl, rfl, found⟩

theorem key_of_get? {table : OverloadTable σ} {operator : Operator} {roots : List TypeRoot}
    {overload : Overload σ} (found : table.get? operator roots = some overload) :
    overload.key = ⟨operator.identity, roots⟩ := by
  simpa using List.find?_some found

theorem exists_widensTo_of_resolve {table : OverloadTable σ} {operator : Operator}
    {roots : List TypeRoot} {resolution : Resolution σ}
    (chosen : table.resolve operator roots = some resolution)
    (approximate : resolution.kind = .approximate) :
    ∃ (position : Nat) (candidate input : TypeRoot),
      resolution.overload.signature[position]? = some candidate ∧
        roots[position]? = some input ∧ input.widensTo candidate = true := by
  have scanned := chosen
  rw [resolve_eq_scan] at scanned
  obtain ⟨member, same, accepted⟩ := accepts_of_scan scanned
  apply Signature.exists_widensTo_of_accepts accepted
  cases exact : table.get? operator roots with
  | some overload =>
      rw [resolve, exact] at chosen
      rw [← Option.some.inj chosen] at approximate
      contradiction
  | none => exact signature_ne_of_get?_eq_none exact member same

/-- The choice in a table that some use of a builder has led to.  The overload with the key of the
call is taken, and with it the scan ends.  Otherwise the first overload of the operator that
accepts the operands is taken, in the order of registration.  What is chosen has as many operands
as the call, and an approximate choice widens one of them. -/
theorem resolve_eq_scan_of_run [OfContextFunction σ] (settings : Settings)
    (steps : List (BuilderStep σ)) (table : OverloadTable σ)
    (built : (TableBuilder.run settings steps).build = .ok table) (operator : Operator)
    (roots : List TypeRoot) :
    table.resolve operator roots = scan table.overloads operator roots ∧
      (∀ overload ∈ table.overloads, overload.key = ⟨operator.identity, roots⟩ →
        table.resolve operator roots = some ⟨overload, .exact⟩) ∧
      ∀ resolution, table.resolve operator roots = some resolution →
        resolution.overload.signature.length = roots.length ∧
          (resolution.kind = .approximate →
            ∃ (position : Nat) (candidate input : TypeRoot),
              resolution.overload.signature[position]? = some candidate ∧
                roots[position]? = some input ∧ input.widensTo candidate = true) := by
  have distinct : (Registration.keys table.overloads).Nodup := by
    rw [TableBuilder.eq_of_build built]
    exact TableBuilder.nodup_keys_run settings steps
  refine ⟨resolve_eq_scan table operator roots, ?_, ?_⟩
  · intro overload member called
    rw [resolve, get?_eq_some_of_mem distinct member called]
  · intro resolution chosen
    have scanned := chosen
    rw [resolve_eq_scan] at scanned
    obtain ⟨-, -, accepted⟩ := accepts_of_scan scanned
    exact ⟨Signature.length_eq_of_accepts accepted, exists_widensTo_of_resolve chosen⟩

/-- A key that is registered again keeps its place, so the wider overload is still met first. -/
theorem resolve_eq_scan_of_run_overwritten :
    let log : Operator := ⟨7, "LOG", .function⟩
    let renamed : Operator := ⟨7, "LN", .function⟩
    let steps : List (BuilderStep Strategy) :=
      [.overload { operator := log, signature := [.double], strategy := .math .log },
        .overload { operator := log, signature := [.float], strategy := .math .exp },
        .overload { operator := renamed, signature := [.double], strategy := .math .ln }]
    let held : Overload Strategy :=
      { operator := log, signature := [.double], strategy := .math .ln }
    let table : OverloadTable Strategy :=
      { overloads :=
          [held, { operator := log, signature := [.float], strategy := .math .exp }]
        mode := .streaming }
    (TableBuilder.run { duplicates := .overwrite } steps).build = .ok table ∧
      table.resolve renamed [.integer] = some ⟨held, .approximate⟩ := by
  intro log renamed steps held table
  have built : (TableBuilder.run { duplicates := .overwrite } steps).build = .ok table := rfl
  have scanned := (resolve_eq_scan_of_run _ steps table built renamed [.integer]).1
  exact ⟨built, scanned.trans rfl⟩

end OverloadTable
end OperatorDispatch
