import Mathlib.Logic.ExistsUnique
import OperatorDispatch.Overload.Table

/-!
# Positions of overloads

The positions kept for each operator are complete, ascending and in range.  Reading the overloads
at the positions of an operator is therefore the same as keeping its overloads from the whole list,
and every overload belongs to the positions of exactly one operator.
-/

namespace OperatorDispatch

variable {σ : Type}

theorem Operator.same_eq_decide (left right : Operator) :
    left.same right = decide (left.identity = right.identity) := by
  rw [Bool.eq_iff_iff]
  simp [Operator.same]

theorem Operator.same_iff {left right : Operator} :
    left.same right = true ↔ left.identity = right.identity := by
  rw [same_eq_decide, decide_eq_true_iff]

/-- Adds the position of one overload to the positions of its operator. -/
private def notePosition (groups : Std.HashMap UInt64 (List Nat)) (entry : Overload σ × Nat) :
    Std.HashMap UInt64 (List Nat) :=
  groups.alter entry.1.operator.identity fun group? => some (group?.getD [] ++ [entry.2])

private theorem positionsByOperator_eq (overloads : List (Overload σ)) :
    positionsByOperator overloads = overloads.zipIdx.foldl notePosition ∅ := rfl

private theorem getD_foldl_notePosition (entries : List (Overload σ × Nat))
    (groups : Std.HashMap UInt64 (List Nat)) (identity : UInt64) :
    (entries.foldl notePosition groups).getD identity [] =
      groups.getD identity [] ++
        (entries.filter fun entry => entry.1.operator.identity = identity).map (·.2) := by
  induction entries generalizing groups with
  | nil => simp
  | cons entry entries induction =>
      rw [List.foldl_cons, induction, notePosition, Std.HashMap.getD_alter]
      by_cases same : entry.1.operator.identity = identity
      · subst same
        simp [Std.HashMap.getD_eq_getD_getElem?]
      · simp [same]

private theorem contains_foldl_notePosition (entries : List (Overload σ × Nat))
    (groups : Std.HashMap UInt64 (List Nat)) (identity : UInt64) :
    (entries.foldl notePosition groups).contains identity =
      (groups.contains identity ||
        entries.any fun entry => entry.1.operator.identity = identity) := by
  induction entries generalizing groups with
  | nil => simp
  | cons entry entries induction =>
      rw [List.foldl_cons, induction, notePosition, Std.HashMap.contains_alter]
      by_cases same : entry.1.operator.identity = identity
      · simp [same]
      · simp [same]

theorem getD_positionsByOperator (overloads : List (Overload σ)) (identity : UInt64) :
    (positionsByOperator overloads).getD identity [] =
      (overloads.zipIdx.filter fun entry => entry.1.operator.identity = identity).map (·.2) := by
  rw [positionsByOperator_eq, getD_foldl_notePosition]
  simp

theorem contains_positionsByOperator (overloads : List (Overload σ)) (identity : UInt64) :
    (positionsByOperator overloads).contains identity =
      overloads.any fun overload => overload.operator.identity = identity := by
  rw [positionsByOperator_eq, contains_foldl_notePosition, Std.HashMap.contains_empty,
    Bool.false_or]
  calc
    overloads.zipIdx.any (fun entry => entry.1.operator.identity = identity) =
        (overloads.zipIdx.map Prod.fst).any fun overload =>
          overload.operator.identity = identity := by
      rw [List.any_map]
      rfl
    _ = overloads.any fun overload => overload.operator.identity = identity := by
      rw [List.zipIdx_map_fst]

/-- Reading a list at the positions that a filter keeps is filtering the list. -/
private theorem filterMap_positions (all overloads : List (Overload σ)) (start : Nat)
    (keep : Overload σ → Bool)
    (placed : ∀ place, overloads[place]? = all[start + place]?) :
    (((overloads.zipIdx start).filter fun entry => keep entry.1).map (·.2)).filterMap
        (fun position => all[position]?) =
      overloads.filter keep := by
  induction overloads generalizing start with
  | nil => rfl
  | cons overload overloads induction =>
      have here : all[start]? = some overload := by simpa using (placed 0).symm
      have later : ∀ place, overloads[place]? = all[start + 1 + place]? := by
        intro place
        simpa [Nat.add_assoc, Nat.add_comm 1 place] using placed (place + 1)
      have rest := induction (start + 1) later
      rw [List.zipIdx_cons]
      by_cases kept : keep overload = true
      · simp only [List.filter_cons_of_pos, kept, List.map_cons, List.filterMap_cons, here]
        rw [rest]
      · simp only [List.filter_cons_of_neg, kept, Bool.false_eq_true, not_false_eq_true]
        exact rest

namespace OverloadTable

theorem byOperator_eq (table : OverloadTable σ) :
    table.byOperator = positionsByOperator table.overloads :=
  table.grouped

/-- The overloads of an operator are found by a scan of all overloads. -/
theorem overloadsOf_eq_filter (table : OverloadTable σ) (operator : Operator) :
    table.overloadsOf operator =
      table.overloads.filter fun overload => overload.operator.same operator := by
  rw [overloadsOf, positionsOf, byOperator_eq, getD_positionsByOperator]
  have scanned := filterMap_positions table.overloads table.overloads 0
    (fun overload => overload.operator.same operator) (by simp)
  rw [← scanned]
  simp only [Operator.same_eq_decide]

theorem mem_byOperator_iff (table : OverloadTable σ) (identity : UInt64) (position : Nat) :
    position ∈ table.byOperator.getD identity [] ↔
      ∃ overload, table.overloads[position]? = some overload ∧
        overload.operator.identity = identity := by
  rw [byOperator_eq, getD_positionsByOperator]
  simp [List.mem_zipIdx_iff_getElem?]

/-- Every overload belongs to the positions of exactly one operator. -/
theorem existsUnique_mem_byOperator (table : OverloadTable σ) {position : Nat}
    (within : position < table.size) :
    ∃! identity, position ∈ table.byOperator.getD identity [] := by
  have held : table.overloads[position]? = some table.overloads[position] :=
    List.getElem?_eq_getElem within
  refine ⟨table.overloads[position].operator.identity, ?_, ?_⟩
  · exact (mem_byOperator_iff table _ _).2 ⟨_, held, rfl⟩
  · intro identity member
    obtain ⟨overload, found, same⟩ := (mem_byOperator_iff table _ _).1 member
    rw [held] at found
    rw [← same, Option.some.inj found]

theorem pairwise_lt_byOperator (table : OverloadTable σ) (identity : UInt64) :
    (table.byOperator.getD identity []).Pairwise (· < ·) := by
  rw [byOperator_eq, getD_positionsByOperator]
  have ascending : (table.overloads.zipIdx.map (·.2)).Pairwise (· < ·) := by
    simpa using List.pairwise_lt_range'
  exact ascending.sublist (List.filter_sublist.map _)

theorem hasOperator_eq_any (table : OverloadTable σ) (operator : Operator) :
    table.hasOperator operator =
      table.overloads.any fun overload => overload.operator.same operator := by
  rw [hasOperator, byOperator_eq, contains_positionsByOperator]
  simp only [Operator.same_eq_decide]

end OverloadTable
end OperatorDispatch
