import OperatorDispatch.Proofs.Call.WellFormed
import OperatorDispatch.Proofs.Machine.Conversion

/-!
# Casts

Where an overload widens an operand, the caller could have cast it.  A cast gives the operand the
type to which it is converted otherwise.  As long as the type of the result does not come from an
operand that is widened, the call with its casts is planned like the call without them.
-/

namespace OperatorDispatch

namespace Operand

/-- The operand as a value with the given root.  Its value is the same. -/
def cast (operand : Operand) (target : TypeRoot) : Operand :=
  { operand with type := operand.fittedType target }

/-- The operands of a call, cast to a signature. -/
def casts (operands : List Operand) (signature : Signature) : List Operand :=
  List.zipWith cast operands signature

theorem cast_root (operand : Operand) : operand.cast operand.root = operand := by
  rw [cast, fittedType_root]

theorem root_cast (operand : Operand) (target : TypeRoot) : (operand.cast target).root = target :=
  operand.root_fittedType target

theorem casts_cons (operand : Operand) (operands : List Operand) (target : TypeRoot)
    (signature : Signature) :
    casts (operand :: operands) (target :: signature) =
      operand.cast target :: casts operands signature := rfl

theorem map_type_casts (operands : List Operand) (signature : Signature) :
    (casts operands signature).map (·.type) = fittedTypes operands signature :=
  List.map_zipWith

end Operand

namespace Loads

variable {operands : List Operand} {signature : Signature} {actions : List Action}

theorem map_root_casts (loads : Loads operands signature actions) :
    (Operand.casts operands signature).map (·.root) = signature := by
  have types := congrArg (List.map (·.root)) (Operand.map_type_casts operands signature)
  rw [List.map_map, loads.map_root_fittedTypes] at types
  exact types

theorem any_nullable_casts (loads : Loads operands signature actions) :
    (Operand.casts operands signature).any (·.type.nullable) =
      operands.any (·.type.nullable) := by
  rw [← loads.anyNullable_fittedTypes, ← Operand.map_type_casts, LogicalType.anyNullable,
    List.any_map]
  rfl

theorem length_casts (loads : Loads operands signature actions) :
    (Operand.casts operands signature).length = operands.length := by
  rw [← List.length_map, loads.map_root_casts, loads.length_eq]

theorem casts_eq_self (loads : Loads operands signature actions)
    (fixed : ∀ root ∈ signature, root.isNumericPrimitive = false) :
    Operand.casts operands signature = operands := by
  induction loads with
  | nil => rfl
  | same rest induction =>
      rw [Operand.casts_cons, Operand.cast_root,
        induction fun root member => fixed root (.tail _ member)]
  | widened differs converts rest induction =>
      have numeric := (Opcode.isNumericPrimitive_of_widening? converts).2
      rw [fixed _ (.head _)] at numeric
      contradiction

end Loads

/-! ## Plans -/

/-- The call with its operands cast to the signature. -/
def CallSite.casting (site : CallSite) : CallSite :=
  { site with operands := Operand.casts site.operands site.signature }

@[simp]
theorem CallSite.unsupported_casting (site : CallSite) (root : TypeRoot) :
    site.casting.unsupported root = site.unsupported root := rfl

namespace CallPlan

variable {site : CallSite} {plan : CallPlan} {actions : List Action}

/-- A cast keeps the root that is expected of the first operand, and the type of a decimal. -/
theorem firstOperand_casting (loads : Loads site.operands site.signature actions)
    {root : TypeRoot} {type : LogicalType} (first : site.firstOperand = .ok (root, type)) :
    ∃ castType, site.casting.firstOperand = .ok (root, castType) ∧
      (root = .decimal → castType = type) := by
  obtain ⟨signature, operand, operands, headed, given, rfl⟩ :=
    CallSite.firstOperand_eq_ok.1 first
  rw [headed, given] at loads
  have castGiven : site.casting.operands =
      operand.cast root :: Operand.casts operands signature := by
    rw [CallSite.casting, headed, given]
    rfl
  have castHeaded : site.casting.signature = root :: signature := headed
  refine ⟨_, CallSite.firstOperand_of_cons castHeaded castGiven, fun decimal => ?_⟩
  rw [← loads.root_eq_of_decimal decimal, Operand.cast_root]

theorem negate_casting (loads : Loads site.operands site.signature actions)
    (planned : negate site = .ok plan) : negate site.casting = .ok plan := by
  obtain ⟨⟨root, type⟩, first, planned⟩ := bind_eq_ok.1 planned
  obtain ⟨castType, castFirst, same⟩ := firstOperand_casting loads first
  rw [negate, castFirst]
  by_cases decimal : root = .decimal
  · rw [same decimal]
    exact planned
  · simpa [decimal] using planned

theorem math_casting {function : MathFunction}
    (loads : Loads site.operands site.signature actions)
    (planned : math function site = .ok plan) : math function site.casting = .ok plan := by
  cases function with
  | abs =>
      obtain ⟨⟨root, type⟩, first, planned⟩ := bind_eq_ok.1 planned
      obtain ⟨castType, castFirst, same⟩ := firstOperand_casting loads first
      rw [math, castFirst]
      by_cases decimal : root = .decimal
      · rw [same decimal]
        exact planned
      · simpa [decimal] using planned
  | _ => exact planned

end CallPlan

namespace Strategy

/-- Whether no cast can change the type of a result.  Arithmetic on decimals and functions on
strings look at the types of all operands, so none of these may be widened. -/
def ignoresCasts (strategy : Strategy) (signature : Signature) : Bool :=
  match strategy with
  | decimalArithmetic _ | string _ => signature.all fun root => !root.isNumericPrimitive
  | _ => true

/-- The call with its casts is planned like the call without them. -/
theorem plan_casting {strategy : Strategy} {site : CallSite} {plan : CallPlan}
    {actions : List Action} (loads : Loads site.operands site.signature actions)
    (ignores : strategy.ignoresCasts site.signature = true)
    (planned : strategy.plan site = .ok plan) : strategy.plan site.casting = .ok plan := by
  obtain ⟨_, checked, planned⟩ := bind_eq_ok.1 planned
  have castChecked : strategy.checkArity site.casting = .ok () := by
    rw [checkArity_eq_ok, CallSite.arity, CallSite.casting, loads.length_casts]
    exact checkArity_eq_ok.1 checked
  have fixed (all : (site.signature.all fun root => !root.isNumericPrimitive) = true) :
      site.casting = site := by
    rw [CallSite.casting, loads.casts_eq_self (by simpa using all)]
  rw [Strategy.plan.eq_def, castChecked]
  cases strategy with
  | arithmetic op => exact planned
  | decimalArithmetic op =>
      rw [fixed ignores]
      exact planned
  | negate => exact CallPlan.negate_casting loads planned
  | comparison op => exact planned
  | math function => exact CallPlan.math_casting loads planned
  | string function =>
      rw [fixed ignores]
      exact planned
  | timePoint function => exact planned

end Strategy

end OperatorDispatch
