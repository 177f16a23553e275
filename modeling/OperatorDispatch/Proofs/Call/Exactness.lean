import Mathlib.Data.Rat.Floor
import Mathlib.Tactic.FieldSimp
import Mathlib.Tactic.Linarith
import Mathlib.Tactic.Positivity
import OperatorDispatch.Proofs.Call.ResultType

/-!
# Results of decimal arithmetic fit their types

A decimal with `p` digits, `s` of them fractional, holds the multiples of `10 ^ (-s)` whose absolute
value is below `10 ^ (p - s)`.  The precision and the scale that an operation derives hold all of
its exact results.  Fitting them into 38 digits keeps the integral digits as long as these leave
room for the scale that an adjustment does not give up, so that only fractional digits are lost.
-/

namespace OperatorDispatch
namespace Decimal

/-! ## Numbers that a decimal holds -/

/-- The number has at most this many fractional digits. -/
def HasScale (scale : ℕ) (x : ℚ) : Prop :=
  ∃ unscaled : ℤ, x * 10 ^ scale = unscaled

/-- A decimal with this precision and scale can be the number. -/
def Holds (parts : ℕ × ℕ) (x : ℚ) : Prop :=
  ∃ unscaled : ℤ, |unscaled| < 10 ^ parts.1 ∧ x = unscaled / 10 ^ parts.2

/-- The integer that is left of a number without its fractional part. -/
def towardZero (x : ℚ) : ℤ :=
  if 0 ≤ x then ⌊x⌋ else ⌈x⌉

/-- The number with all fractional digits beyond the scale cut off. -/
def truncated (scale : ℕ) (x : ℚ) : ℚ :=
  towardZero (x * 10 ^ scale) / 10 ^ scale

/-- The exact result of an operation.  A remainder is what the quotient without its fractional part
leaves, so it has the sign of the first operand. -/
def exactResult (op : ArithmeticOp) (x y : ℚ) : ℚ :=
  match op with
  | .add => x + y
  | .subtract => x - y
  | .multiply => x * y
  | .divide => x / y
  | .modulo => x - y * towardZero (x / y)

/-- A decimal holds the numbers with its scale that are smaller than its integral digits allow. -/
theorem holds_iff {parts : ℕ × ℕ} (scaled : parts.2 ≤ parts.1) {x : ℚ} :
    Holds parts x ↔ HasScale parts.2 x ∧ |x| < 10 ^ (parts.1 - parts.2) := by
  have unit : (0 : ℚ) < 10 ^ parts.2 := by positivity
  have split : (10 : ℚ) ^ parts.1 = 10 ^ (parts.1 - parts.2) * 10 ^ parts.2 := by
    rw [← pow_add, Nat.sub_add_cancel scaled]
  have bounded (unscaled : ℤ) (same : x * 10 ^ parts.2 = unscaled) :
      |unscaled| < 10 ^ parts.1 ↔ |x| < 10 ^ (parts.1 - parts.2) := by
    have size : ((|unscaled| : ℤ) : ℚ) = |x| * 10 ^ parts.2 := by
      rw [Int.cast_abs, ← same, abs_mul, abs_of_pos unit]
    rw [← Int.cast_lt (R := ℚ), size]
    push_cast
    rw [split]
    exact mul_lt_mul_iff_left₀ unit
  constructor
  · rintro ⟨unscaled, small, same⟩
    have product : x * 10 ^ parts.2 = unscaled := by
      rw [same, div_mul_cancel₀ _ unit.ne']
    exact ⟨⟨unscaled, product⟩, (bounded unscaled product).1 small⟩
  · rintro ⟨⟨unscaled, product⟩, small⟩
    refine ⟨unscaled, (bounded unscaled product).2 small, ?_⟩
    rw [← product, mul_div_cancel_right₀ _ unit.ne']

/-! ## Fractional digits -/

theorem HasScale.mono {scale wider : ℕ} {x : ℚ} (le : scale ≤ wider) (scaled : HasScale scale x) :
    HasScale wider x := by
  obtain ⟨unscaled, same⟩ := scaled
  refine ⟨unscaled * 10 ^ (wider - scale), ?_⟩
  have split : (10 : ℚ) ^ wider = 10 ^ scale * 10 ^ (wider - scale) := by
    rw [← pow_add, Nat.add_sub_cancel' le]
  push_cast
  rw [split, ← mul_assoc, same]

theorem HasScale.add {scale : ℕ} {x y : ℚ} (left : HasScale scale x) (right : HasScale scale y) :
    HasScale scale (x + y) := by
  obtain ⟨first, firstIs⟩ := left
  obtain ⟨second, secondIs⟩ := right
  exact ⟨first + second, by push_cast; rw [add_mul, firstIs, secondIs]⟩

theorem HasScale.mul {left right : ℕ} {x y : ℚ} (first : HasScale left x)
    (second : HasScale right y) : HasScale (left + right) (x * y) := by
  obtain ⟨unscaled, same⟩ := first
  obtain ⟨other, otherSame⟩ := second
  refine ⟨unscaled * other, ?_⟩
  push_cast
  rw [← same, ← otherSame, pow_add]
  ring

theorem hasScale_intCast (value : ℤ) : HasScale 0 value := ⟨value, by simp⟩

theorem HasScale.sub {scale : ℕ} {x y : ℚ} (left : HasScale scale x) (right : HasScale scale y) :
    HasScale scale (x - y) := by
  have negated : HasScale scale (y * ((-1 : ℤ) : ℚ)) := right.mul (hasScale_intCast (-1))
  have sum := left.add negated
  simpa [sub_eq_add_neg] using sum

/-! ## Cutting off -/

theorem towardZero_cases (x : ℚ) :
    (0 ≤ x ∧ 0 ≤ (towardZero x : ℚ) ∧ towardZero x ≤ x ∧ x - towardZero x < 1) ∨
      (x ≤ 0 ∧ (towardZero x : ℚ) ≤ 0 ∧ x ≤ towardZero x ∧ towardZero x - x < 1) := by
  rw [towardZero]
  split
  · next nonnegative =>
    have kept : (0 : ℚ) ≤ ⌊x⌋ := by exact_mod_cast Int.floor_nonneg.2 nonnegative
    have next := Int.lt_floor_add_one x
    exact .inl ⟨nonnegative, kept, Int.floor_le x, by linarith⟩
  · next negative =>
    have nonpositive : x ≤ 0 := le_of_not_ge negative
    have kept : (⌈x⌉ : ℚ) ≤ 0 := by
      exact_mod_cast Int.ceil_le.2 (by simpa using nonpositive)
    have next := Int.ceil_lt_add_one x
    exact .inr ⟨nonpositive, kept, Int.le_ceil x, by linarith⟩

theorem abs_towardZero_le (x : ℚ) : |(towardZero x : ℚ)| ≤ |x| := by
  rcases towardZero_cases x with ⟨sign, kept, below, -⟩ | ⟨sign, kept, above, -⟩
  · rwa [abs_of_nonneg kept, abs_of_nonneg sign]
  · rw [abs_of_nonpos kept, abs_of_nonpos sign]
    exact neg_le_neg above

theorem abs_sub_towardZero (x : ℚ) : |x - towardZero x| < 1 ∧ |x - towardZero x| ≤ |x| := by
  rcases towardZero_cases x with ⟨sign, kept, below, small⟩ | ⟨sign, kept, above, small⟩
  · rw [abs_of_nonneg (sub_nonneg.2 below), abs_of_nonneg sign]
    exact ⟨small, by linarith⟩
  · rw [abs_of_nonpos (sub_nonpos.2 above), abs_of_nonpos sign]
    constructor <;> linarith

theorem hasScale_truncated (scale : ℕ) (x : ℚ) : HasScale scale (truncated scale x) := by
  have unit : (10 : ℚ) ^ scale ≠ 0 := by positivity
  exact ⟨towardZero (x * 10 ^ scale), div_mul_cancel₀ _ unit⟩

theorem abs_truncated_le (scale : ℕ) (x : ℚ) : |truncated scale x| ≤ |x| := by
  have unit : (0 : ℚ) < 10 ^ scale := by positivity
  rw [truncated, abs_div, abs_of_pos unit, div_le_iff₀ unit]
  calc
    |(towardZero (x * 10 ^ scale) : ℚ)| ≤ |x * 10 ^ scale| := abs_towardZero_le _
    _ = |x| * 10 ^ scale := by rw [abs_mul, abs_of_pos unit]

/-- A decimal with enough integral digits holds a number up to the fractional digits that it cannot
have. -/
theorem holds_truncated {parts : ℕ × ℕ} (scaled : parts.2 ≤ parts.1) {x : ℚ}
    (small : |x| < 10 ^ (parts.1 - parts.2)) : Holds parts (truncated parts.2 x) :=
  (holds_iff scaled).2
    ⟨hasScale_truncated parts.2 x, lt_of_le_of_lt (abs_truncated_le parts.2 x) small⟩

/-! ## Exact results -/

theorem abs_add_lt {x y : ℚ} {left right : ℕ} (first : |x| < 10 ^ left)
    (second : |y| < 10 ^ right) : |x + y| < 10 ^ (max left right + 1) := by
  have first' : |x| < 10 ^ max left right :=
    first.trans_le (pow_le_pow_right₀ (by norm_num) (le_max_left left right))
  have second' : |y| < 10 ^ max left right :=
    second.trans_le (pow_le_pow_right₀ (by norm_num) (le_max_right left right))
  calc
    |x + y| ≤ |x| + |y| := abs_add_le x y
    _ < 10 ^ max left right + 10 ^ max left right := add_lt_add first' second'
    _ ≤ 10 ^ (max left right + 1) := by
      have positive : (0 : ℚ) < 10 ^ max left right := by positivity
      rw [pow_succ]
      linarith

theorem abs_mul_lt {x y : ℚ} {left right : ℕ} (first : |x| < 10 ^ left)
    (second : |y| < 10 ^ right) : |x * y| < 10 ^ (left + right) := by
  rw [abs_mul, pow_add]
  exact mul_lt_mul'' first second (abs_nonneg x) (abs_nonneg y)

/-- A number other than zero is at least one unit of its last fractional digit. -/
theorem one_le_abs_mul_of_hasScale {scale : ℕ} {y : ℚ} (scaled : HasScale scale y)
    (nonzero : y ≠ 0) : 1 ≤ |y| * 10 ^ scale := by
  obtain ⟨unscaled, same⟩ := scaled
  have unit : (0 : ℚ) < 10 ^ scale := by positivity
  have positive : 1 ≤ |unscaled| := by
    apply Int.one_le_abs
    rintro rfl
    simp [nonzero, unit.ne'] at same
  have size : |y| * 10 ^ scale = ((|unscaled| : ℤ) : ℚ) := by
    rw [Int.cast_abs, ← same, abs_mul, abs_of_pos unit]
  rw [size]
  exact_mod_cast positive

theorem abs_div_lt {x y : ℚ} {integral scale : ℕ} (small : |x| < 10 ^ integral)
    (scaled : HasScale scale y) (nonzero : y ≠ 0) : |x / y| < 10 ^ (integral + scale) := by
  have size : 0 < |y| := abs_pos.2 nonzero
  have unit : 1 ≤ |y| * 10 ^ scale := one_le_abs_mul_of_hasScale scaled nonzero
  rw [abs_div, div_lt_iff₀ size, pow_add]
  calc
    |x| < 10 ^ integral := small
    _ ≤ 10 ^ integral * (|y| * 10 ^ scale) := le_mul_of_one_le_right (by positivity) unit
    _ = 10 ^ integral * 10 ^ scale * |y| := by ring

theorem abs_remainder {x y : ℚ} (nonzero : y ≠ 0) :
    |x - y * towardZero (x / y)| ≤ |x| ∧ |x - y * towardZero (x / y)| < |y| := by
  have size : 0 < |y| := abs_pos.2 nonzero
  have quotient : x - y * towardZero (x / y) = y * (x / y - towardZero (x / y)) := by
    rw [mul_sub, mul_div_cancel₀ x nonzero]
  obtain ⟨fraction, part⟩ := abs_sub_towardZero (x / y)
  rw [quotient, abs_mul]
  constructor
  · calc
      |y| * |x / y - towardZero (x / y)| ≤ |y| * |x / y| :=
        mul_le_mul_of_nonneg_left part size.le
      _ = |x| := by rw [← abs_mul, mul_div_cancel₀ x nonzero]
  · calc
      |y| * |x / y - towardZero (x / y)| < |y| * 1 := mul_lt_mul_of_pos_left fraction size
      _ = |y| := mul_one _

section Results

variable {left right : ℕ × ℕ} {x y : ℚ}

/-- An exact result has no more fractional digits than the operation derives; quotients apart, which
may have any number of them. -/
theorem hasScale_exactResult {op : ArithmeticOp} (other : op ≠ .divide)
    (leftScaled : HasScale left.2 x) (rightScaled : HasScale right.2 y) :
    HasScale (derived op left right).2 (exactResult op x y) := by
  have leftCommon : HasScale (max left.2 right.2) x := leftScaled.mono (le_max_left _ _)
  have rightCommon : HasScale (max left.2 right.2) y := rightScaled.mono (le_max_right _ _)
  cases op with
  | add => exact leftCommon.add rightCommon
  | subtract => exact leftCommon.sub rightCommon
  | multiply => exact leftScaled.mul rightScaled
  | divide => contradiction
  | modulo => exact leftCommon.sub (rightCommon.mul (hasScale_intCast (towardZero (x / y))))

/-- The integral digits of a sum, a product, a quotient and a remainder. -/
def integralDigits (op : ArithmeticOp) (left right : ℕ × ℕ) : ℕ :=
  match op with
  | .add | .subtract => max (left.1 - left.2) (right.1 - right.2) + 1
  | .multiply => left.1 - left.2 + (right.1 - right.2)
  | .divide => left.1 - left.2 + right.2
  | .modulo => min (left.1 - left.2) (right.1 - right.2)

theorem derived_sub (op : ArithmeticOp) (leftValid : Valid left) (rightValid : Valid right) :
    (derived op left right).1 - (derived op left right).2 = integralDigits op left right := by
  obtain ⟨-, -, leftScale⟩ := leftValid
  obtain ⟨-, -, rightScale⟩ := rightValid
  cases op <;> simp only [derived, integralDigits] <;> omega

theorem abs_exactResult_lt (op : ArithmeticOp) (leftValid : Valid left) (rightValid : Valid right)
    (leftSmall : |x| < 10 ^ (left.1 - left.2)) (rightSmall : |y| < 10 ^ (right.1 - right.2))
    (rightScaled : HasScale right.2 y) (nonzero : op = .divide ∨ op = .modulo → y ≠ 0) :
    |exactResult op x y| < 10 ^ ((derived op left right).1 - (derived op left right).2) := by
  rw [derived_sub op leftValid rightValid]
  cases op with
  | add => exact abs_add_lt leftSmall rightSmall
  | subtract =>
      rw [exactResult, sub_eq_add_neg]
      exact abs_add_lt leftSmall (by rwa [abs_neg])
  | multiply => exact abs_mul_lt leftSmall rightSmall
  | divide => exact abs_div_lt leftSmall rightScaled (nonzero (.inl rfl))
  | modulo =>
      obtain ⟨leftBound, rightBound⟩ := abs_remainder (x := x) (nonzero (.inr rfl))
      rw [integralDigits]
      -- The smaller of the two operands bounds the remainder.
      rcases min_choice (left.1 - left.2) (right.1 - right.2) with fewest | fewest
      · rw [fewest]
        exact leftBound.trans_lt leftSmall
      · rw [fewest]
        exact rightBound.trans rightSmall

end Results

/-! ## Results that are fitted into 38 digits -/

theorem integral_fitted {parts : ℕ × ℕ} (scaled : parts.2 ≤ parts.1)
    (room : parts.1 - parts.2 ≤ 38 - min parts.2 6) :
    parts.1 - parts.2 ≤ (fitted parts).1 - (fitted parts).2 := by
  rw [fitted]
  split <;> simp only <;> omega

theorem one_le_derived (op : ArithmeticOp) {left right : ℕ × ℕ} (leftValid : Valid left)
    (rightValid : Valid right) : 1 ≤ (derived op left right).1 := by
  obtain ⟨leftPositive, -, leftScale⟩ := leftValid
  obtain ⟨rightPositive, -, rightScale⟩ := rightValid
  cases op <;> simp only [derived] <;> omega

theorem fitted_of_le {parts : ℕ × ℕ} (positive : 1 ≤ parts.1) (fits : parts.1 ≤ 38) :
    fitted parts = parts := by
  rw [fitted, if_pos fits, Nat.max_eq_left positive]

theorem derived_modulo_le {left right : ℕ × ℕ} (leftValid : Valid left) (rightValid : Valid right) :
    (derived .modulo left right).1 ≤ 38 := by
  obtain ⟨-, leftBounded, leftScale⟩ := leftValid
  obtain ⟨-, rightBounded, rightScale⟩ := rightValid
  simp only [derived]
  omega

/-- The type of a result is large enough.  What an operation derives before the adjustment holds the
exact result, and a quotient up to its last fractional digit.  Where the adjustment leaves room for
all integral digits, the type holds the exact result up to its last fractional digit; and where the
precision fits, nothing is adjusted. -/
theorem holds_resultParts (op : ArithmeticOp) {left right : UInt8 × UInt8}
    (leftValid : Valid (digits left)) (rightValid : Valid (digits right)) {x y : ℚ}
    (leftHolds : Holds (digits left) x) (rightHolds : Holds (digits right) y)
    (nonzero : op = .divide ∨ op = .modulo → y ≠ 0) :
    let wide := values (derive op (words left) (words right))
    let result := digits (resultParts op left right)
    wide.2 ≤ wide.1 ∧
      (op ≠ .divide → Holds wide (exactResult op x y)) ∧
      Holds wide (truncated wide.2 (exactResult op x y)) ∧
      (op = .modulo → wide.1 ≤ 38) ∧
      (wide.1 - wide.2 ≤ 38 - min wide.2 6 →
        Holds result (truncated result.2 (exactResult op x y))) ∧
      (wide.1 ≤ 38 → result = wide) ∧
      ∃ type, resultType op left right = .ok type ∧
        type.decimalParts?.map digits = some result := by
  intro wide result
  -- From here on all digits are counted in natural numbers.
  have wide_eq : wide = derived op (digits left) (digits right) :=
    values_derive op leftValid rightValid
  have result_eq : result = fitted wide := by
    rw [wide_eq]
    exact digits_resultParts op leftValid rightValid
  obtain ⟨scaled, -⟩ := derived_bounds op leftValid rightValid
  obtain ⟨leftScaled, leftSmall⟩ := (holds_iff leftValid.scale_le).1 leftHolds
  obtain ⟨rightScaled, rightSmall⟩ := (holds_iff rightValid.scale_le).1 rightHolds
  have small := abs_exactResult_lt op leftValid rightValid leftSmall rightSmall rightScaled nonzero
  rw [← wide_eq] at scaled small
  refine ⟨scaled, ?_, holds_truncated scaled small, ?_, ?_, ?_, ?_⟩
  · intro other
    have exactScale := hasScale_exactResult other leftScaled rightScaled
    rw [← wide_eq] at exactScale
    exact (holds_iff scaled).2 ⟨exactScale, small⟩
  · rintro rfl
    rw [wide_eq]
    exact derived_modulo_le leftValid rightValid
  · intro room
    rw [result_eq]
    have kept := integral_fitted scaled room
    exact holds_truncated (valid_fitted scaled).scale_le
      (small.trans_le (pow_le_pow_right₀ (by norm_num) kept))
  · intro fits
    rw [result_eq]
    refine fitted_of_le ?_ fits
    rw [wide_eq]
    exact one_le_derived op leftValid rightValid
  · obtain ⟨type, typed⟩ := exists_resultType op leftValid rightValid
    have parts := (LogicalType.decimalParts?_of_decimal typed).2
    exact ⟨type, typed, by rw [parts]; rfl⟩

/-- The largest amount in cents that 20 digits hold, divided by seven: the quotient has 18 integral
digits, and of 21 fractional digits one is given up. -/
theorem holds_resultParts_divide :
    Valid (digits (20, 2)) ∧ Valid (digits (18, 0)) ∧
      Holds (digits (20, 2)) (99999999999999999999 / 10 ^ 2) ∧ Holds (digits (18, 0)) 7 ∧
      (7 : ℚ) ≠ 0 ∧
      values (derive .divide (words (20, 2)) (words (18, 0))) = (39, 21) ∧
      resultParts .divide (20, 2) (18, 0) = (38, 20) ∧
      Holds (38, 20) (truncated 20 (99999999999999999999 / 10 ^ 2 / 7)) := by
  have leftValid : Valid (digits (20, 2)) := ⟨by decide, by decide, by decide⟩
  have rightValid : Valid (digits (18, 0)) := ⟨by decide, by decide, by decide⟩
  have dividend : Holds (digits (20, 2)) (99999999999999999999 / 10 ^ 2) :=
    ⟨99999999999999999999, by decide, by push_cast; rfl⟩
  have divisor : Holds (digits (18, 0)) 7 := ⟨7, by decide, by norm_num [digits]⟩
  have nonzero : (7 : ℚ) ≠ 0 := by norm_num
  obtain ⟨-, -, -, -, fitting, -⟩ :=
    holds_resultParts .divide leftValid rightValid dividend divisor fun _ => nonzero
  exact ⟨leftValid, rightValid, dividend, divisor, nonzero, rfl, rfl, fitting (by decide)⟩

end Decimal
end OperatorDispatch
