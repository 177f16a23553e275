import Mathlib.Data.List.Dedup
import OperatorDispatch.Proofs.Overload.Positions
import OperatorDispatch.Proofs.Overload.Registration

/-!
# Tables as ordered lists

A table that is built from a sequence of registrations is an ordered list of overloads with
distinct keys, and every question put to the table is answered by that list.
-/

namespace OperatorDispatch

variable {σ : Type}

open Registration

/-- Every question put to the table is answered by the list. -/
structure OverloadTable.Represents (table : OverloadTable σ) (listed : List (Overload σ)) :
    Prop where
  /-- The overloads are the list, in this order. -/
  overloads_eq : table.overloads = listed
  /-- The size is the length of the list. -/
  size_eq : table.size = listed.length
  /-- An exact search finds what a search of the list finds. -/
  get?_eq : ∀ operator roots, table.get? operator roots =
    listed.find? fun overload => overload.key = ⟨operator.identity, roots⟩
  /-- A key is contained exactly when it is a key of the list. -/
  contains_iff : ∀ operator roots, table.contains operator roots = true ↔
    (⟨operator.identity, roots⟩ : CallKey) ∈ keys listed
  /-- The signatures of an operator are those that the list has for it, in order. -/
  signaturesOf_eq : ∀ operator, table.signaturesOf operator =
    (listed.filter fun overload => overload.operator.same operator).map (·.signature)
  /-- An operator is known exactly when the list has an overload of it. -/
  hasOperator_iff : ∀ operator, table.hasOperator operator = true ↔
    listed.filter (fun overload => overload.operator.same operator) ≠ []
  /-- Every overload stands in the positions of exactly one operator. -/
  existsUnique_operator : ∀ position < listed.length,
    ∃! identity, position ∈ table.byOperator.getD identity []
  /-- The positions of an operator ascend, so none stands there twice. -/
  ascending : ∀ identity, (table.byOperator.getD identity []).Pairwise (· < ·)

/-- Every table answers by the list of its overloads. -/
theorem OverloadTable.represents (table : OverloadTable σ) :
    table.Represents table.overloads where
  overloads_eq := rfl
  size_eq := rfl
  get?_eq _ _ := rfl
  contains_iff operator roots := by
    rw [contains, mem_keys_iff_find?, Option.isSome_iff_exists]
    rfl
  signaturesOf_eq operator := by rw [signaturesOf, overloadsOf_eq_filter]
  hasOperator_iff operator := by
    rw [hasOperator_eq_any, List.any_eq_true, ne_eq, List.filter_eq_nil_iff]
    simp
  existsUnique_operator position within := table.existsUnique_mem_byOperator within
  ascending identity := table.pairwise_lt_byOperator identity

namespace TableBuilder

/-- The builder after a sequence of registrations. -/
def ofCalls (settings : Settings) (calls : List (Overload σ)) : TableBuilder σ :=
  ({ settings : TableBuilder σ }).registerAll calls

theorem build_eq_error {builder : TableBuilder σ} {heading : Heading}
    (refused : builder.settings.duplicates = .reject)
    (oldest : builder.repeats.head? = some heading) :
    builder.build = .error (.duplicateOverload heading) := by
  obtain ⟨later, repeats⟩ : ∃ later, builder.repeats = heading :: later := by
    cases repeats : builder.repeats with
    | nil => simp [repeats] at oldest
    | cons first later => exact ⟨later, by simpa [repeats] using oldest⟩
  rw [build, refused, repeats]

theorem build_eq_ok {builder : TableBuilder σ}
    (accepted : builder.settings.duplicates = .overwrite ∨ builder.repeats = []) :
    builder.build = .ok { overloads := builder.overloads, mode := builder.settings.mode } := by
  rw [build]
  rcases accepted with overwrite | unrepeated
  · rw [overwrite]
  · rw [unrepeated]
    cases builder.settings.duplicates <;> rfl

theorem Records.repeats_eq_nil_iff {builder : TableBuilder σ} {calls : List (Overload σ)}
    (records : builder.Records calls) : builder.repeats = [] ↔ (keys calls).Nodup := by
  constructor
  · exact records.nodup_of_nil
  · intro distinct
    cases repeats : builder.repeats with
    | nil => rfl
    | cons heading later =>
        obtain ⟨before, call, after, held, rfl, -, found, -⟩ :=
          records.firstRepeat heading (by rw [repeats, List.head?_cons])
        have known : call.key ∈ keys before := (mem_keys_iff_find? _ _).2 ⟨held, found⟩
        rw [keys, List.map_append, List.map_cons, List.nodup_append] at distinct
        exact absurd rfl (distinct.2.2 _ known _ List.mem_cons_self)

/-- Whatever was registered, the first repetition is the error if repetitions are refused, and
there is a table otherwise. -/
theorem Records.build_cases {builder : TableBuilder σ} {calls : List (Overload σ)}
    (records : builder.Records calls) :
    (builder.settings.duplicates = .reject ∧ ¬ (keys calls).Nodup ∧
      ∃ heading, FirstRepeat calls heading ∧
        builder.build = .error (.duplicateOverload heading)) ∨
    ((builder.settings.duplicates = .overwrite ∨ (keys calls).Nodup) ∧
      builder.build =
        .ok { overloads := builder.overloads, mode := builder.settings.mode }) := by
  by_cases accepted : builder.settings.duplicates = .overwrite ∨ (keys calls).Nodup
  · exact .inr ⟨accepted, build_eq_ok (accepted.imp_right records.repeats_eq_nil_iff.2)⟩
  · obtain ⟨notOverwrite, repeated⟩ := not_or.1 accepted
    have refused : builder.settings.duplicates = .reject := by
      cases policy : builder.settings.duplicates with
      | overwrite => exact absurd policy notOverwrite
      | reject => rfl
    cases repeats : builder.repeats with
    | nil => exact absurd (records.nodup_of_nil repeats) repeated
    | cons heading later =>
        have oldest : builder.repeats.head? = some heading := by
          rw [repeats, List.head?_cons]
        exact .inl ⟨refused, repeated, heading, records.firstRepeat heading oldest,
          build_eq_error refused oldest⟩

theorem length_settled (calls : List (Overload σ)) :
    (settled calls).length = (keys calls).dedup.length := by
  have sameKeys : (keys (settled calls)).Perm (keys calls).dedup := by
    rw [List.perm_ext_iff_of_nodup (nodup_keys_settled calls) (List.nodup_dedup _)]
    intro key
    rw [mem_keys_settled, List.mem_dedup]
  rw [← sameKeys.length_eq, keys, List.length_map]

/-- The table of a sequence of registrations.  If repetitions are refused and there is one, the
error names the first, by the heading under which its key was registered first.  Otherwise the
table is the settled list of the sequence: each key once, in the order of first registrations, with
its last strategy; what is missing from the number of calls was overwritten. -/
theorem build_ofCalls (settings : Settings) (calls : List (Overload σ)) :
    (settings.duplicates = .reject ∧ ¬ (keys calls).Nodup ∧
      ∃ heading, FirstRepeat calls heading ∧
        (ofCalls settings calls).build = .error (.duplicateOverload heading)) ∨
    ((settings.duplicates = .overwrite ∨ (keys calls).Nodup) ∧
      ∃ table, (ofCalls settings calls).build = .ok table ∧ table.mode = settings.mode ∧
        table.Represents (settled calls) ∧ (keys (settled calls)).Nodup ∧
          table.size = (keys calls).dedup.length ∧
            table.size + ((ofCalls settings calls).summary table).overwritten = calls.length) := by
  have records := records_registerAll settings calls
  have same : (ofCalls settings calls).settings = settings := settings_registerAll _ _
  by_cases accepted : settings.duplicates = .overwrite ∨ (keys calls).Nodup
  · right
    have built : (ofCalls settings calls).build = _ := build_eq_ok <| by
      rw [same]
      exact accepted.imp_right records.repeats_eq_nil_iff.2
    refine ⟨accepted, _, built, ?_, ?_, nodup_keys_settled calls, ?_, ?_⟩
    · rw [same]
    · rw [← records.overloads_eq]
      exact OverloadTable.represents _
    · rw [← length_settled, ← records.overloads_eq]
      rfl
    · exact records.counted
  · left
    obtain ⟨notOverwrite, repeated⟩ := not_or.1 accepted
    have refused : settings.duplicates = .reject := by
      cases policy : settings.duplicates with
      | overwrite => exact absurd policy notOverwrite
      | reject => rfl
    cases repeats : (ofCalls settings calls).repeats with
    | nil => exact absurd (records.nodup_of_nil repeats) repeated
    | cons heading later =>
        have oldest : (ofCalls settings calls).repeats.head? = some heading := by
          rw [repeats, List.head?_cons]
        refine ⟨refused, repeated, heading, records.firstRepeat heading oldest, ?_⟩
        exact build_eq_error (by rw [same, refused]) oldest

end TableBuilder
end OperatorDispatch
