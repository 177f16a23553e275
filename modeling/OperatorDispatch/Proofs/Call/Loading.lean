import OperatorDispatch.Proofs.Call.Plan
import OperatorDispatch.Proofs.Machine.Conversion
import OperatorDispatch.Proofs.Machine.Typing
import OperatorDispatch.Proofs.Types.Widening

/-!
# Loading operands

The code of a call pushes each operand and converts those whose root is not the one of the
signature, each by the one opcode for the two roots.  On the typed machine this leaves values with
the roots of the signature, and a value may be NULL exactly if its operand may be.
-/

namespace OperatorDispatch

/-- The action that pushes an operand. -/
def Operand.action (operand : Operand) : Action :=
  match operand.source with
  | .slot number => .load number
  | .literal (.int value) => .push (.int value)
  | .literal (.double bits) => .push (.double bits)
  | .literal (.string text) => .push (.string text)
  | .literal .null => .direct .pushNull []

/-- The actions push the operands from left to right, each of them converted exactly if its root
differs from the one of the signature. -/
inductive Loads : List Operand → Signature → List Action → Prop where
  | nil : Loads [] [] []
  /-- The operand has the root of the signature. -/
  | same {operand : Operand} {operands : List Operand} {signature : Signature}
      {actions : List Action} (rest : Loads operands signature actions) :
      Loads (operand :: operands) (operand.root :: signature) (operand.action :: actions)
  /-- The operand is widened. -/
  | widened {operand : Operand} {operands : List Operand} {target : TypeRoot}
      {signature : Signature} {opcode : Opcode} {actions : List Action}
      (differs : operand.root ≠ target)
      (converts : Opcode.widening? operand.root target = some opcode)
      (rest : Loads operands signature actions) :
      Loads (operand :: operands) (target :: signature)
        (operand.action :: .direct opcode [] :: actions)

theorem Operand.eq_action_of_pushed {operand : Operand} {actions : List Action}
    (pushed : operand.pushed = .ok actions) : actions = [operand.action] := by
  rw [Operand.pushed.eq_def] at pushed
  rw [action.eq_def]
  cases found : operand.source with
  | slot number =>
      simp only [found] at pushed
      split at pushed
      · exact (Except.ok.inj pushed).symm
      · contradiction
  | literal value => cases value <;> simp_all

namespace TypeRoot

theorem fitted_self (root : TypeRoot) : root.fitted (some root) = .ok [] := by
  rw [fitted, converted, if_pos rfl, ite_self]

theorem converts_of_fitted {source target : TypeRoot} {actions : List Action}
    (accepted : target.accepts source = true) (differs : source ≠ target)
    (fits : source.fitted (some target) = .ok actions) :
    ∃ opcode, Opcode.widening? source target = some opcode ∧ actions = [.direct opcode []] := by
  have widens : source.widensTo target = true :=
    ((accepts_iff target source).1 accepted).resolve_left differs.symm
  obtain ⟨opcode, converts⟩ := (widensTo_iff_exists_widening? source target).1 widens
  rw [fitted, if_pos (isNumericPrimitive_of_widensTo widens).2, converted, if_neg differs,
    converts] at fits
  exact ⟨opcode, converts, (Except.ok.inj fits).symm⟩

end TypeRoot

/-- For operands that the signature accepts, the actions of their instructions load them. -/
theorem loads_of_loaded {operands : List Operand} {signature : Signature} {actions : List Action}
    (accepted : signature.accepts (operands.map (·.root)) = true)
    (loaded : Operand.loaded operands signature = .ok actions) :
    Loads operands signature actions := by
  induction operands generalizing signature actions with
  | nil =>
      have empty : signature = [] :=
        List.length_eq_zero_iff.1 (Signature.length_eq_of_accepts accepted)
      cases loaded
      rw [empty]
      exact .nil
  | cons operand operands induction =>
      cases signature with
      | nil => contradiction
      | cons target signature =>
          obtain ⟨here, later⟩ := (Bool.and_eq_true _ _).mp accepted
          obtain ⟨push, pushed, loaded⟩ := bind_eq_ok.1 loaded
          obtain ⟨conversion, fits, loaded⟩ := bind_eq_ok.1 loaded
          obtain ⟨rest, others, joined⟩ := bind_eq_ok.1 loaded
          have tail : Loads operands signature rest := induction later others
          rw [← Except.ok.inj joined, Operand.eq_action_of_pushed pushed]
          by_cases equal : operand.root = target
          · subst equal
            rw [List.head?_cons, TypeRoot.fitted_self] at fits
            rw [← Except.ok.inj fits]
            exact .same tail
          · obtain ⟨opcode, converts, rfl⟩ := TypeRoot.converts_of_fitted here equal fits
            exact .widened equal converts tail

/-! ## Types of loaded operands -/

/-- The type of an operand once it is converted to a root. -/
def Operand.fittedType (operand : Operand) (target : TypeRoot) : LogicalType :=
  if operand.root = target then
    operand.type
  else
    (LogicalType.simple target).withNullable operand.type.nullable

/-- The types of operands once they are converted to a signature. -/
def Operand.fittedTypes (operands : List Operand) (signature : Signature) : List LogicalType :=
  List.zipWith Operand.fittedType operands signature

namespace Operand

theorem fittedType_root (operand : Operand) : operand.fittedType operand.root = operand.type :=
  if_pos rfl

theorem root_fittedType (operand : Operand) (target : TypeRoot) :
    (operand.fittedType target).root = target := by
  rw [fittedType]
  split
  · next same => exact same
  · rfl

theorem nullable_fittedType (operand : Operand) (target : TypeRoot) :
    (operand.fittedType target).nullable = operand.type.nullable := by
  rw [fittedType]
  split
  · rfl
  · rfl

theorem fittedTypes_cons (operand : Operand) (operands : List Operand) (target : TypeRoot)
    (signature : Signature) :
    fittedTypes (operand :: operands) (target :: signature) =
      operand.fittedType target :: fittedTypes operands signature := rfl

end Operand

namespace Loads

variable {operands : List Operand} {signature : Signature} {actions : List Action}

theorem map_root_fittedTypes (loads : Loads operands signature actions) :
    (Operand.fittedTypes operands signature).map (·.root) = signature := by
  induction loads with
  | nil => rfl
  | same rest induction | widened _ _ rest induction =>
      rw [Operand.fittedTypes_cons, List.map_cons, Operand.root_fittedType, induction]

theorem anyNullable_fittedTypes (loads : Loads operands signature actions) :
    LogicalType.anyNullable (Operand.fittedTypes operands signature) =
      operands.any (·.type.nullable) := by
  induction loads with
  | nil => rfl
  | same rest induction | widened _ _ rest induction =>
      rw [LogicalType.anyNullable] at induction
      rw [LogicalType.anyNullable, Operand.fittedTypes_cons, List.any_cons, induction,
        List.any_cons, Operand.nullable_fittedType]

end Loads

namespace TypedMachine

theorem step_action (runtime : Runtime) (operand : Operand) (pending stack : List LogicalType) :
    step runtime ⟨operand.type :: pending, stack⟩ operand.action =
      some ⟨pending, operand.type :: stack⟩ := by
  rw [Operand.action]
  cases operand.source with
  | slot number => rfl
  | literal value => cases value <;> rfl

/-- Loading operands leaves their types, converted to the signature. -/
theorem run_loads (runtime : Runtime) {operands : List Operand} {signature : Signature}
    {actions : List Action} (loads : Loads operands signature actions)
    (pending stack : List LogicalType) :
    run runtime ⟨operands.map (·.type) ++ pending, stack⟩ actions =
      some ⟨pending, (Operand.fittedTypes operands signature).reverse ++ stack⟩ := by
  induction loads generalizing stack with
  | nil => rfl
  | @same operand operands signature actions rest induction =>
      rw [List.map_cons, List.cons_append, run_cons, step_action, Option.bind_some, induction,
        Operand.fittedTypes_cons, List.reverse_cons, List.append_assoc, Operand.fittedType_root]
      rfl
  | @widened operand operands target signature opcode actions differs converts rest induction =>
      have converted : operand.fittedType target =
          (LogicalType.simple target).withNullable operand.type.nullable := if_neg differs
      rw [List.map_cons, List.cons_append, run_cons, step_action, Option.bind_some, run_cons,
        step_conversion runtime converts, Option.bind_some, induction, Operand.fittedTypes_cons,
        List.reverse_cons, List.append_assoc, converted]
      rfl

end TypedMachine
end OperatorDispatch
