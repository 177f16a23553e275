import Mathlib.Order.Bounds.Defs
import OperatorDispatch.Proofs.Call.Checked
import OperatorDispatch.Proofs.Call.Exactness

/-!
# Adjustments keep the largest scale

A precision that does not fit into 38 digits costs fractional digits only.  The scale that is left
is the largest one that leaves room for all integral digits, or else the one that no adjustment
gives up.  What was adjusted fits, so adjusting it again changes nothing.
-/

namespace OperatorDispatch
namespace Decimal

/-- The scales that an adjustment may leave, for a precision and a scale: the scale up to six, which
is never given up, and each smaller scale that leaves room for all integral digits. -/
def admissibleScales (parts : Nat × Nat) : Set Nat :=
  {kept | kept ≤ parts.2 ∧ (kept = min parts.2 6 ∨ (parts.1 - parts.2 : Int) ≤ 38 - kept)}

section Fitted

variable {parts : Nat × Nat}

theorem fst_fitted (parts : Nat × Nat) : (fitted parts).1 = max 1 (min parts.1 38) := by
  rw [fitted]
  split <;> simp only <;> omega

theorem isGreatest_snd_fitted (scaled : parts.2 ≤ parts.1) :
    IsGreatest (admissibleScales parts) (fitted parts).2 := by
  rw [fitted]
  split
  · next fits =>
      refine ⟨⟨Nat.le_refl _, .inr ?_⟩, fun kept admissible => admissible.1⟩
      simp only
      omega
  · next large =>
      constructor
      · constructor
        · simp only
          omega
        · simp only
          omega
      · rintro kept ⟨smaller, rfl | room⟩
        · exact Nat.le_max_right _ _
        · simp only
          omega

/-- Integral digits are lost only where the scale has shrunk as far as it can. -/
theorem integral_le_fitted (scaled : parts.2 ≤ parts.1)
    (shrinks : (fitted parts).2 ≠ min parts.2 6) :
    parts.1 - parts.2 ≤ (fitted parts).1 - (fitted parts).2 := by
  rw [fitted] at shrinks ⊢
  split at shrinks <;> simp only at shrinks ⊢ <;> split <;> simp only <;> omega

theorem fitted_fitted (scaled : parts.2 ≤ parts.1) : fitted (fitted parts) = fitted parts :=
  fitted_of_le (valid_fitted scaled).positive (valid_fitted scaled).bounded

end Fitted

theorem digits_injective : Function.Injective digits := by
  intro left right same
  obtain ⟨precision, scale⟩ := Prod.mk.inj same
  exact Prod.ext (UInt8.toNat_inj.1 precision) (UInt8.toNat_inj.1 scale)

theorem adjust_adjust {precision scale : UInt32} (scaled : scale.toNat ≤ precision.toNat) :
    let result := adjust precision scale
    adjust result.1.toUInt32 result.2.toUInt32 = result := by
  intro result
  have first : digits result = fitted (precision.toNat, scale.toNat) := digits_adjust scaled
  have again : (digits result).2 ≤ (digits result).1 := by
    rw [first]
    exact (valid_fitted scaled).scale_le
  apply digits_injective
  calc
    digits (adjust result.1.toUInt32 result.2.toUInt32) = fitted (digits result) :=
      digits_adjust again
    _ = digits result := by rw [first, fitted_fitted scaled]

/-- No step of an adjustment underflows or cuts a number off.  The precision becomes the nearest one
from 1 to 38, and the scale the largest one that leaves room for all integral digits or is never
given up.  So the scale does not grow and is at most the precision, integral digits are lost only
where it has shrunk as far as it can, and a second adjustment changes nothing. -/
theorem isGreatest_adjust {precision scale : UInt32} (scaled : scale ≤ precision) :
    Checked.adjust precision scale = .ok (adjust precision scale) ∧
      let result := adjust precision scale
      let adjusted := digits result
      adjusted.1 = max 1 (min precision.toNat 38) ∧
      IsGreatest (admissibleScales (precision.toNat, scale.toNat)) adjusted.2 ∧
      adjusted.2 ≤ adjusted.1 ∧ adjusted.2 ≤ scale.toNat ∧ min scale.toNat 6 ≤ adjusted.2 ∧
      (adjusted.2 ≠ min scale.toNat 6 →
        precision.toNat - scale.toNat ≤ adjusted.1 - adjusted.2) ∧
      adjust result.1.toUInt32 result.2.toUInt32 = result := by
  have enough : scale.toNat ≤ precision.toNat := UInt32.le_iff_toNat_le.1 scaled
  refine ⟨Checked.adjust_eq_ok enough, ?_⟩
  intro result adjusted
  have adjusted_eq : adjusted = fitted (precision.toNat, scale.toNat) := digits_adjust enough
  have greatest : IsGreatest (admissibleScales (precision.toNat, scale.toNat)) _ :=
    isGreatest_snd_fitted enough
  have least : min scale.toNat 6 ∈ admissibleScales (precision.toNat, scale.toNat) :=
    ⟨Nat.min_le_left _ _, .inl rfl⟩
  refine ⟨?_, ?_, ?_, ?_, ?_, ?_, adjust_adjust enough⟩
  all_goals rw [adjusted_eq]
  · exact fst_fitted _
  · exact greatest
  · exact (valid_fitted enough).scale_le
  · exact greatest.1.1
  · exact greatest.2 least
  · exact integral_le_fitted enough

/-- Of 39 digits, 20 of them fractional, one fractional digit is given up; with 40 integral digits
no more than six fractional digits are left. -/
theorem isGreatest_adjust_wide :
    ((20 : UInt32) ≤ 39 ∧ adjust 39 20 = (38, 19) ∧ IsGreatest (admissibleScales (39, 20)) 19 ∧
      19 ≠ min 20 6) ∧
    (47 : UInt32) ≤ 87 ∧ adjust 87 47 = (38, 6) ∧ IsGreatest (admissibleScales (87, 47)) 6 := by
  have first : (20 : UInt32) ≤ 39 := by decide
  have second : (47 : UInt32) ≤ 87 := by decide
  obtain ⟨-, -, shrunk, -⟩ := isGreatest_adjust first
  obtain ⟨-, -, least, -⟩ := isGreatest_adjust second
  exact ⟨⟨first, rfl, shrunk, by decide⟩, second, rfl, least⟩

end Decimal
end OperatorDispatch
