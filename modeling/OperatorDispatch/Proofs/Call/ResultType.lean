import OperatorDispatch.Proofs.Call.WellFormed

/-!
# Types of results always exist

The rules for decimals are computed on machine words.  On the precisions and scales that types can
have they agree with the same rules on natural numbers, so nothing wraps around, and what they give
is a decimal type again.  A concatenation of strings has a type whenever each operand has a length.
-/

namespace OperatorDispatch

namespace Decimal

/-- Precision and scale as natural numbers. -/
def digits (parts : UInt8 × UInt8) : Nat × Nat :=
  (parts.1.toNat, parts.2.toNat)

/-- Precision and scale as words, for computing with them. -/
def words (parts : UInt8 × UInt8) : UInt32 × UInt32 :=
  (parts.1.toUInt32, parts.2.toUInt32)

/-- The values of two words. -/
def values (words : UInt32 × UInt32) : Nat × Nat :=
  (words.1.toNat, words.2.toNat)

/-- The number of digits is from 1 to 38, and at most all of them are fractional. -/
structure Valid (parts : Nat × Nat) : Prop where
  positive : 1 ≤ parts.1
  bounded : parts.1 ≤ 38
  scale_le : parts.2 ≤ parts.1

/-- The precision and the scale that hold every result of the operation, in natural numbers. -/
def derived (op : ArithmeticOp) (left right : Nat × Nat) : Nat × Nat :=
  let (p₁, s₁) := left
  let (p₂, s₂) := right
  match op with
  | .add | .subtract => (max (p₁ - s₁) (p₂ - s₂) + max s₁ s₂ + 1, max s₁ s₂)
  | .multiply => (p₁ + p₂, s₁ + s₂)
  | .divide => (p₁ - s₁ + s₂ + max 6 (s₁ + p₂ + 1), max 6 (s₁ + p₂ + 1))
  | .modulo => (min (p₁ - s₁) (p₂ - s₂) + max s₁ s₂, max s₁ s₂)

/-- A precision and a scale fitted into 38 digits, in natural numbers. -/
def fitted (parts : Nat × Nat) : Nat × Nat :=
  if parts.1 ≤ 38 then
    (max parts.1 1, parts.2)
  else
    (38, max (38 - (parts.1 - parts.2)) (min parts.2 6))

/-- What an operation derives never has more fractional digits than digits, and either number is
small. -/
theorem derived_bounds (op : ArithmeticOp) {left right : Nat × Nat} (leftValid : Valid left)
    (rightValid : Valid right) :
    (derived op left right).2 ≤ (derived op left right).1 ∧ (derived op left right).1 ≤ 153 := by
  obtain ⟨-, leftBounded, leftScale⟩ := leftValid
  obtain ⟨-, rightBounded, rightScale⟩ := rightValid
  cases op <;> simp only [derived] <;> omega

theorem valid_fitted {parts : Nat × Nat} (scaled : parts.2 ≤ parts.1) : Valid (fitted parts) := by
  rw [fitted]
  split
  · next small => exact ⟨Nat.le_max_right _ _, by omega, by omega⟩
  · next large => exact ⟨by omega, Nat.le_refl 38, by omega⟩

/-- On words nothing wraps around. -/
theorem values_derive (op : ArithmeticOp) {left right : UInt32 × UInt32}
    (leftValid : Valid (values left)) (rightValid : Valid (values right)) :
    values (derive op left right) = derived op (values left) (values right) := by
  obtain ⟨p₁, s₁⟩ := left
  obtain ⟨p₂, s₂⟩ := right
  obtain ⟨-, leftBounded, leftScale⟩ := leftValid
  obtain ⟨-, rightBounded, rightScale⟩ := rightValid
  have leftIntegral := UInt32.toNat_sub_of_le p₁ s₁ (UInt32.le_iff_toNat_le.2 leftScale)
  have rightIntegral := UInt32.toNat_sub_of_le p₂ s₂ (UInt32.le_iff_toNat_le.2 rightScale)
  have kept : keptScale.toNat = 6 := rfl
  have one : (1 : UInt32).toNat = 1 := rfl
  simp only [values] at leftBounded leftScale rightBounded rightScale
  cases op <;>
    simp only [values, derive, derived, UInt32.toNat_add, UInt32.toNat_max, UInt32.toNat_min,
      leftIntegral, rightIntegral, kept, one, Prod.mk.injEq,
      and_true] <;> omega

/-- On words the adjustment is the same, and both parts fit a byte. -/
theorem digits_adjust {precision scale : UInt32} (scaled : scale.toNat ≤ precision.toNat) :
    digits (adjust precision scale) = fitted (precision.toNat, scale.toNat) := by
  have most : maxDigits.toNat = 38 := rfl
  have kept : keptScale.toNat = 6 := rfl
  have one : (1 : UInt32).toNat = 1 := rfl
  have small : precision ≤ maxDigits ↔ precision.toNat ≤ 38 := by
    rw [UInt32.le_iff_toNat_le, most]
  have integral := UInt32.toNat_sub_of_le precision scale (UInt32.le_iff_toNat_le.2 scaled)
  rw [adjust, fitted, digits]
  by_cases fits : precision.toNat ≤ 38
  · rw [if_pos (small.2 fits), if_pos fits]
    simp only [UInt32.toNat_toUInt8, UInt32.toNat_max, one, Prod.mk.injEq]
    omega
  · have room : (if precision - scale ≤ maxDigits then maxDigits - (precision - scale)
        else 0).toNat = 38 - (precision.toNat - scale.toNat) := by
      split
      · next within =>
          rw [UInt32.toNat_sub_of_le _ _ within, most, integral]
      · next beyond =>
          rw [UInt32.le_iff_toNat_le, most, integral] at beyond
          have nothing : (0 : UInt32).toNat = 0 := rfl
          omega
    rw [if_neg (mt small.1 fits), if_neg fits]
    simp only [UInt32.toNat_toUInt8, UInt32.toNat_max, UInt32.toNat_min, room, most, kept,
      Prod.mk.injEq, Nat.reduceMod, Nat.reducePow, true_and]
    omega

theorem scale_le_derive (op : ArithmeticOp) {left right : UInt8 × UInt8}
    (leftValid : Valid (digits left)) (rightValid : Valid (digits right)) :
    (derive op (words left) (words right)).2.toNat ≤
      (derive op (words left) (words right)).1.toNat := by
  have scaled := (derived_bounds op leftValid rightValid).1
  have derivation : values (derive op (words left) (words right)) =
      derived op (digits left) (digits right) := values_derive op leftValid rightValid
  rw [← derivation] at scaled
  exact scaled

/-- Precision and scale of a result are those of the rules on natural numbers. -/
theorem digits_resultParts (op : ArithmeticOp) {left right : UInt8 × UInt8}
    (leftValid : Valid (digits left)) (rightValid : Valid (digits right)) :
    digits (resultParts op left right) = fitted (derived op (digits left) (digits right)) := by
  have derivation : values (derive op (words left) (words right)) =
      derived op (digits left) (digits right) := values_derive op leftValid rightValid
  rw [← derivation]
  exact digits_adjust (scale_le_derive op leftValid rightValid)

theorem valid_resultParts (op : ArithmeticOp) {left right : UInt8 × UInt8}
    (leftValid : Valid (digits left)) (rightValid : Valid (digits right)) :
    Valid (digits (resultParts op left right)) := by
  rw [digits_resultParts op leftValid rightValid]
  exact valid_fitted (derived_bounds op leftValid rightValid).1

end Decimal

/-! ## Types that operands can have -/

namespace LogicalType

variable {type : LogicalType}

theorem exists_decimalParts? (decimal : type.root = .decimal) :
    ∃ parts, type.decimalParts? = some parts := by
  obtain ⟨root, params, nullable, admitted⟩ := type
  cases decimal
  cases params with
  | decimal precision scale => exact ⟨(precision, scale), rfl⟩
  | _ => contradiction

theorem valid_of_decimalParts? {parts : UInt8 × UInt8} (known : type.decimalParts? = some parts) :
    Decimal.Valid (Decimal.digits parts) := by
  have decimal := root_of_decimalParts? known
  obtain ⟨root, params, nullable, admitted⟩ := type
  cases decimal
  cases params with
  | decimal precision scale =>
      cases known
      obtain ⟨⟨positive, bounded⟩, scaled⟩ : (1 ≤ precision ∧ precision ≤ maxDecimalPrecision) ∧
          scale ≤ precision := by
        simpa [TypeRoot.admits] using admitted
      exact ⟨UInt8.le_iff_toNat_le.1 positive, UInt8.le_iff_toNat_le.1 bounded,
        UInt8.le_iff_toNat_le.1 scaled⟩
  | _ => contradiction

theorem exists_decimal {precision scale : UInt8}
    (valid : Decimal.Valid (Decimal.digits (precision, scale))) :
    ∃ type, decimal precision scale = .ok type := by
  have admitted : TypeRoot.decimal.admits (.decimal precision scale) = true := by
    have positive : 1 ≤ precision := UInt8.le_iff_toNat_le.2 valid.positive
    have bounded : precision ≤ maxDecimalPrecision := UInt8.le_iff_toNat_le.2 valid.bounded
    have scaled : scale ≤ precision := UInt8.le_iff_toNat_le.2 valid.scale_le
    simp [TypeRoot.admits, positive, bounded, scaled]
  rw [decimal, build, dif_pos admitted]
  exact ⟨_, rfl⟩

theorem one_le_of_length? {length : UInt32} (known : type.length? = some length) :
    1 ≤ length.toNat := by
  obtain ⟨root, params, nullable, admitted⟩ := type
  cases params with
  | length held =>
      cases known
      cases root with
      | char | varchar =>
          have positive : 1 ≤ length := by simpa [TypeRoot.admits] using admitted
          exact UInt32.le_iff_toNat_le.1 positive
      | binary | varbinary =>
          obtain rfl : length = 1 := by
            simpa [TypeRoot.admits, TypeRoot.defaultParams] using admitted
          exact Nat.le_refl 1
      | _ => simp [TypeRoot.admits, TypeRoot.defaultParams] at admitted
  | _ => contradiction

end LogicalType

theorem CallSite.valid_of_decimalParts {site : CallSite} {operand : Operand}
    {parts : UInt8 × UInt8} (known : site.decimalParts operand = .ok parts) :
    Decimal.Valid (Decimal.digits parts) :=
  LogicalType.valid_of_decimalParts? (decimalParts_eq_ok.1 known)

/-! ## Types of results -/

theorem mapM_cases {ε α β : Type} (action : α → Except ε β) (elements : List α) :
    (∃ values, elements.mapM action = .ok values ∧ values.length = elements.length ∧
      ∀ value ∈ values, ∃ element ∈ elements, action element = .ok value) ∨
    ∃ element ∈ elements, ∃ cause, action element = .error cause ∧
      elements.mapM action = .error cause := by
  induction elements with
  | nil => exact .inl ⟨[], rfl, rfl, nofun⟩
  | cons element elements induction =>
      rw [List.mapM_cons]
      cases first : action element with
      | error cause => exact .inr ⟨element, .head _, cause, first, rfl⟩
      | ok value =>
          rcases induction with
            ⟨values, rest, counted, each⟩ | ⟨other, member, cause, refused, rest⟩
          · refine .inl ⟨value :: values, ?_, congrArg Nat.succ counted, ?_⟩
            · rw [rest]
              rfl
            · rintro later (_ | ⟨_, member⟩)
              · exact ⟨element, .head _, first⟩
              · obtain ⟨source, sourceMember, known⟩ := each later member
                exact ⟨source, .tail _ sourceMember, known⟩
          · refine .inr ⟨other, .tail _ member, cause, refused, ?_⟩
            rw [rest]
            rfl

/-- Arithmetic on decimals always has a type. -/
theorem Decimal.exists_resultType (op : ArithmeticOp) {left right : UInt8 × UInt8}
    (leftValid : Valid (digits left)) (rightValid : Valid (digits right)) :
    ∃ type, resultType op left right = .ok type :=
  LogicalType.exists_decimal (valid_resultParts op leftValid rightValid)

namespace CharacterString

theorem toNat_joinedLength (left right : UInt32) :
    (joinedLength left right).toNat = min (left.toNat + right.toNat) 2147483647 := by
  have most : maxLength.toNat = 2147483647 := rfl
  rw [joinedLength, most]
  exact UInt32.toNat_ofNat_of_lt' (Nat.lt_of_le_of_lt (Nat.min_le_right _ _) (by decide))

theorem one_le_foldl_joinedLength (start : UInt32) {lengths : List UInt32}
    (each : ∀ length ∈ lengths, 1 ≤ length.toNat) (some : 1 ≤ start.toNat ∨ lengths ≠ []) :
    1 ≤ (lengths.foldl joinedLength start).toNat := by
  induction lengths generalizing start with
  | nil => exact some.resolve_right (not_not.2 rfl)
  | cons length lengths induction =>
      have positive := each length (.head _)
      have joined := toNat_joinedLength start length
      rw [List.foldl_cons]
      refine induction _ (fun later member => each later (.tail _ member)) (.inl ?_)
      omega

theorem exists_char_or_varchar {length : UInt32} (positive : 1 ≤ length.toNat) :
    (∃ type, LogicalType.char length = .ok type) ∧
      ∃ type, LogicalType.varchar length = .ok type := by
  have admitted : 1 ≤ length := UInt32.le_iff_toNat_le.2 positive
  rw [LogicalType.char, LogicalType.varchar, LogicalType.build, LogicalType.build,
    dif_pos (by simpa [TypeRoot.admits] using admitted),
    dif_pos (by simpa [TypeRoot.admits] using admitted)]
  exact ⟨⟨_, rfl⟩, ⟨_, rfl⟩⟩

/-- The length of an operand, or the refusal of an operand that is no string. -/
def lengthOf (operator : Operator) (operand : Operand) : Except CallError UInt32 :=
  match operand.type.length? with
  | some length => .ok length
  | none => .error (.unsupportedOperand operator.name operand.root)

theorem lengthOf_eq_ok {operator : Operator} {operand : Operand} {length : UInt32} :
    lengthOf operator operand = .ok length ↔ operand.type.length? = some length := by
  rw [lengthOf]
  cases operand.type.length? <;> simp

theorem lengthOf_eq_error {operator : Operator} {operand : Operand} {cause : CallError} :
    lengthOf operator operand = .error cause ↔ operand.type.length? = none ∧
      cause = .unsupportedOperand operator.name operand.root := by
  rw [lengthOf]
  cases operand.type.length? <;> simp [eq_comm]

theorem concatType_eq (operator : Operator) (operands : List Operand) :
    concatType operator operands = operands.mapM (lengthOf operator) >>= fun lengths =>
      (if operands.all (·.root = .char) then LogicalType.char (lengths.foldl joinedLength 0)
        else LogicalType.varchar (lengths.foldl joinedLength 0)).mapError .invalidResultType := rfl

theorem concatType_cases (operator : Operator) {operands : List Operand} (given : operands ≠ []) :
    (∃ type, concatType operator operands = .ok type) ∨
      ∃ operand ∈ operands, operand.type.length? = none ∧
        concatType operator operands =
          .error (.unsupportedOperand operator.name operand.root) := by
  rw [concatType_eq]
  rcases mapM_cases (lengthOf operator) operands with
    ⟨lengths, known, counted, each⟩ | ⟨operand, member, cause, refused, failed⟩
  · left
    have positive : ∀ length ∈ lengths, 1 ≤ length.toNat := by
      intro length member
      obtain ⟨operand, -, found⟩ := each length member
      exact LogicalType.one_le_of_length? (lengthOf_eq_ok.1 found)
    have nonempty : lengths ≠ [] := by
      rw [← List.length_pos_iff, counted]
      exact List.length_pos_iff.2 given
    obtain ⟨⟨char, charIs⟩, ⟨varchar, varcharIs⟩⟩ :=
      exists_char_or_varchar (one_le_foldl_joinedLength 0 positive (.inr nonempty))
    rw [known]
    by_cases fixed : operands.all (·.root = .char) = true
    · exact ⟨char, by simp [fixed, charIs, Except.mapError]⟩
    · exact ⟨varchar, by simp [fixed, varcharIs, Except.mapError]⟩
  · right
    obtain ⟨unknown, rfl⟩ := lengthOf_eq_error.1 refused
    refine ⟨operand, member, unknown, ?_⟩
    rw [failed]
    rfl

end CharacterString
end OperatorDispatch
