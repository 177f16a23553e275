import OperatorDispatch.Proofs.Call.Plan
import OperatorDispatch.Proofs.Machine.PoolContents

/-!
# What an emission leaves behind

A call that does not fit its strategy is refused before anything is written.  Once operands are
pushed, only a slot, a constant or a conversion can stop the call.  However it ends, the code and
the constants from before are still there, in front of what was added.
-/

namespace OperatorDispatch

/-- Whether the cause says that the call does not fit its strategy: by the number of its operands,
by their roots, or because its result has no type. -/
def CallError.isMismatch : CallError → Bool
  | arityMismatch _ _ _ | unsupportedOperand _ _ | invalidResultType _ => true
  | _ => false

/-! ## Pushing operands -/

theorem Operand.isMismatch_of_pushed {operand : Operand} {cause : CallError}
    (refused : operand.pushed = .error cause) : cause.isMismatch = false := by
  rw [pushed.eq_def] at refused
  split at refused
  · split at refused
    · contradiction
    · cases refused
      rfl
  all_goals contradiction

theorem TypeRoot.isMismatch_of_fitted {source : TypeRoot} {target? : Option TypeRoot}
    {cause : CallError} (refused : source.fitted target? = .error cause) :
    cause.isMismatch = false := by
  rw [fitted.eq_def] at refused
  split at refused
  · split at refused
    · rw [converted] at refused
      split at refused
      · contradiction
      · split at refused
        · contradiction
        · cases refused
          rfl
    · contradiction
  · contradiction

/-- Operands are never refused for their number or their roots once they are pushed. -/
theorem Operand.isMismatch_of_loaded {operands : List Operand} {signature : Signature}
    {cause : CallError} (refused : loaded operands signature = .error cause) :
    cause.isMismatch = false := by
  induction operands generalizing signature with
  | nil => contradiction
  | cons operand operands induction =>
      rw [loaded] at refused
      rcases bind_eq_error.1 refused with pushing | ⟨pushed, -, refused⟩
      · exact isMismatch_of_pushed pushing
      rcases bind_eq_error.1 refused with fitting | ⟨fitted, -, refused⟩
      · exact TypeRoot.isMismatch_of_fitted fitting
      rcases bind_eq_error.1 refused with loading | ⟨rest, -, refused⟩
      · exact induction loading
      · contradiction

/-! ## Ends of an emission -/

namespace Emission

/-- The state in which a step ends. -/
def stateAfter {α : Type} : EStateM.Result CallError EmissionState α → EmissionState
  | .ok _ state => state
  | .error _ state => state

/-- The cause for which a step fails. -/
def cause? {α : Type} : EStateM.Result CallError EmissionState α → Option CallError
  | .ok _ _ => none
  | .error cause _ => some cause

theorem footprint_bind_pure {α β : Type} (step : Emission α) (value : β) (before : EmissionState) :
    stateAfter ((step >>= fun _ => pure value) before) = stateAfter (step before) ∧
      cause? ((step >>= fun _ => pure value) before) = cause? (step before) := by
  cases ran : step before with
  | ok given after =>
      rw [bind_of_eq_ok ran]
      exact ⟨rfl, rfl⟩
  | error cause after =>
      rw [bind_of_eq_error ran]
      exact ⟨rfl, rfl⟩

/-- A step that stands for actions keeps what is there, and fails for a mismatch only if there are
no actions for that reason. -/
theorem Means.footprint {step : Emission Unit} {meaning : Except CallError (List Action)}
    {room : Nat} (means : Means step meaning room) (before : EmissionState) :
    before.Extends (stateAfter (step before)) ∧
      ∀ cause, cause? (step before) = some cause → cause.isMismatch = true →
        meaning = .error cause := by
  have ended := means before
  generalize step before = result at ended
  cases ended with
  | wrote after instructions actions means written grown =>
      exact ⟨⟨written ▸ List.prefix_append _ _, grown⟩, nofun⟩
  | refused reason after means kept =>
      refine ⟨kept, fun cause failed _ => ?_⟩
      cases failed
      exact means
  | overflowed after kept =>
      refine ⟨kept, fun cause failed mismatched => ?_⟩
      cases failed
      contradiction

end Emission

namespace Strategy

theorem means_write {strategy : Strategy} {site : CallSite} {plan : CallPlan}
    (planned : strategy.plan site = .ok plan) :
    Emission.Means
      (Emission.operands site.operands site.signature >>= fun _ => emitFinal site plan.final)
      (do return (← Operand.loaded site.operands site.signature) ++ [plan.final.action site])
      (site.operands.length + 1) :=
  (Emission.means_operands site.operands site.signature).bind
    (means_emitFinal site (plan_eq_ok planned).2.1)

/-- From every state, a call that is refused because it does not fit its strategy leaves the state
as it was.  However a call ends, the code and the constants begin with those from before, and
truncating the pool to its old size restores it. -/
theorem footprint_emit (strategy : Strategy) (site : CallSite) (before : EmissionState) :
    let result := strategy.emit site before
    let after := Emission.stateAfter result
    let restored := after.pool.truncate before.pool.size
    (∀ cause, Emission.cause? result = some cause → cause.isMismatch = true → after = before) ∧
      before.code.bytes <+: after.code.bytes ∧
      before.pool.constants.toList <+: after.pool.constants.toList ∧
      restored.constants = before.pool.constants ∧
      ∀ constant, restored.find? constant = before.pool.find? constant := by
  intro result after restored
  suffices kept : (∀ cause, Emission.cause? result = some cause → cause.isMismatch = true →
      after = before) ∧ before.Extends after by
    have constants := ConstantPool.constants_truncate kept.2.2
    exact ⟨kept.1, kept.2.1, kept.2.2, constants, ConstantPool.find?_congr constants⟩
  cases planned : strategy.plan site with
  | error cause =>
      have unchanged : result = .error cause before := by
        change strategy.emit site before = _
        rw [emit_of_plan_eq_error planned]
        rfl
      have same : after = before := congrArg Emission.stateAfter unchanged
      exact ⟨fun _ _ _ => same, same ▸ .refl before⟩
  | ok plan =>
      obtain ⟨kept, mismatched⟩ := (means_write planned).footprint before
      obtain ⟨state, causes⟩ := Emission.footprint_bind_pure
        (Emission.operands site.operands site.signature >>= fun _ => emitFinal site plan.final)
        (plan.result.withNullable site.anyNullable) before
      rw [← emit_of_plan_eq_ok planned] at state causes
      rw [← state] at kept
      refine ⟨fun cause failed mismatch => ?_, kept⟩
      have refused := mismatched cause (causes.symm.trans failed) mismatch
      rcases bind_eq_error.1 refused with loading | ⟨loads, -, last⟩
      · rw [Operand.isMismatch_of_loaded loading] at mismatch
        contradiction
      · contradiction

end Strategy
end OperatorDispatch
