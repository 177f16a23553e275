import Mathlib.Algebra.BigOperators.Group.List.Basic
import OperatorDispatch.Proofs.Call.StringLength

/-!
# Types of concatenations

The length of a concatenation is counted on words, one operand after the other.  Every addition
stops at the greatest word and then at the greatest length, yet no step loses anything that the end
would keep: the result is the exact sum, cut off once.  So the order of the operands does not
matter, neither for the length nor for the rest of the type.
-/

namespace OperatorDispatch
namespace CharacterString

/-! ## Counting on words -/

/-- The sum of two words, or the greatest word if the sum is no word. -/
def saturatingAdd (left right : UInt32) : UInt32 :=
  if left + right < left then 4294967295 else left + right

theorem toNat_saturatingAdd (left right : UInt32) :
    (saturatingAdd left right).toNat = min (left.toNat + right.toNat) 4294967295 := by
  have sum : (left + right).toNat = (left.toNat + right.toNat) % 4294967296 :=
    UInt32.toNat_add left right
  have leftBound : left.toNat < 4294967296 := left.toNat_lt
  have rightBound : right.toNat < 4294967296 := right.toNat_lt
  rw [saturatingAdd]
  split
  · next wrapped =>
      rw [UInt32.lt_iff_toNat_lt, sum] at wrapped
      change 4294967295 = _
      omega
  · next within =>
      rw [UInt32.lt_iff_toNat_lt, sum] at within
      rw [sum]
      omega

/-- The length that is counted for strings with these lengths. -/
def countedLength (lengths : List UInt32) : UInt32 :=
  lengths.foldl (fun total length => min (saturatingAdd total length) maxLength) 0

/-- A step on words adds two lengths up to the greatest length. -/
theorem min_saturatingAdd (left right : UInt32) :
    min (saturatingAdd left right) maxLength = joinedLength left right := by
  have most : maxLength.toNat = 2147483647 := rfl
  rw [← UInt32.toNat_inj, UInt32.toNat_min, toNat_saturatingAdd, toNat_joinedLength, most]
  omega

theorem countedLength_eq (lengths : List UInt32) :
    countedLength lengths = lengths.foldl joinedLength 0 := by
  rw [countedLength]
  congr 1
  funext total length
  exact min_saturatingAdd total length

/-- Counting gives the exact sum, cut off once at the greatest length. -/
theorem toNat_countedLength (lengths : List UInt32) :
    (countedLength lengths).toNat = min (lengths.map UInt32.toNat).sum maxLength.toNat := by
  rw [countedLength_eq, toNat_foldl_joinedLength lengths (Nat.zero_le _), UInt32.toNat_zero,
    Nat.zero_add]

theorem countedLength_of_perm {left right : List UInt32} (rearranged : left.Perm right) :
    countedLength left = countedLength right := by
  rw [← UInt32.toNat_inj, toNat_countedLength, toNat_countedLength,
    (rearranged.map UInt32.toNat).sum_eq]

/-! ## Operands that have a length -/

/-- The lengths of the operands, as far as their types have one. -/
def lengths (operands : List Operand) : List UInt32 :=
  operands.filterMap (·.type.length?)

theorem mapM_lengthOf {operands : List Operand}
    (sized : ∀ operand ∈ operands, ∃ length, operand.type.length? = some length)
    (operator : Operator) : operands.mapM (lengthOf operator) = .ok (lengths operands) := by
  induction operands with
  | nil => rfl
  | cons operand operands induction =>
      obtain ⟨length, known⟩ := sized operand (.head _)
      have rest := induction fun later member => sized later (.tail _ member)
      have listed : lengths (operand :: operands) = length :: lengths operands :=
        List.filterMap_cons_some known
      rw [List.mapM_cons, lengthOf_eq_ok.2 known, rest, listed]
      rfl

theorem concatType_of_sized {operands : List Operand}
    (sized : ∀ operand ∈ operands, ∃ length, operand.type.length? = some length)
    (operator : Operator) :
    concatType operator operands =
      (if ∀ operand ∈ operands, operand.root = .char then
        LogicalType.char (countedLength (lengths operands))
      else
        LogicalType.varchar (countedLength (lengths operands))).mapError .invalidResultType := by
  rw [concatType_eq, mapM_lengthOf sized, ok_bind, ← countedLength_eq]
  simp only [List.all_eq_true, decide_eq_true_eq]

theorem concatType_of_perm {operands rearranged : List Operand}
    (sized : ∀ operand ∈ operands, ∃ length, operand.type.length? = some length)
    (same : rearranged.Perm operands) (operator : Operator) :
    concatType operator rearranged = concatType operator operands := by
  have members : ∀ operand, operand ∈ rearranged ↔ operand ∈ operands := fun _ => same.mem_iff
  have counted : countedLength (lengths rearranged) = countedLength (lengths operands) :=
    countedLength_of_perm (same.filterMap _)
  rw [concatType_of_sized sized, concatType_of_sized fun operand member =>
    sized operand ((members operand).1 member), counted]
  simp only [members]

/-- Operands that all have a length, one operand at least, have a concatenation type.  Its length
is the exact sum of theirs up to the greatest length, in whatever order they come, and it is `CHAR`
if all of them are and `VARCHAR` otherwise. -/
theorem exists_concatType_of_sized (operator : Operator) {operands : List Operand}
    (given : operands ≠ [])
    (sized : ∀ operand ∈ operands, ∃ length, operand.type.length? = some length) :
    ∃ type, concatType operator operands = .ok type ∧
      type.root = (if ∀ operand ∈ operands, operand.root = .char then .char else .varchar) ∧
      type.length? = some (countedLength (lengths operands)) ∧
      (countedLength (lengths operands)).toNat =
        min ((lengths operands).map UInt32.toNat).sum maxLength.toNat ∧
      ∀ rearranged, rearranged.Perm operands → concatType operator rearranged = .ok type := by
  rcases concatType_cases operator given with ⟨type, typed⟩ | ⟨operand, member, unknown, -⟩
  · obtain ⟨found, known, rootIs, lengthIs⟩ := concatType_eq_ok typed
    obtain rfl : lengths operands = found :=
      Except.ok.inj ((mapM_lengthOf sized operator).symm.trans known)
    refine ⟨type, typed, ?_, ?_, toNat_countedLength _, ?_⟩
    · simpa only [List.all_eq_true, decide_eq_true_eq] using rootIs
    · rw [lengthIs, countedLength_eq]
    · intro rearranged same
      rw [concatType_of_perm sized same, typed]
  · obtain ⟨length, known⟩ := sized operand member
    rw [known] at unknown
    contradiction

/-- The greatest word, a length past the greatest one and a `CHAR` of one character: the sum is no
word any more. -/
theorem exists_concatType_of_sized_three :
    let longest : LogicalType := ⟨.varchar, .length 4294967295, true, by decide⟩
    let long : LogicalType := ⟨.char, .length 2147483648, true, by decide⟩
    let short : LogicalType := ⟨.char, .length 1, true, by decide⟩
    let operands : List Operand := [.ofSlot 0 longest, .ofSlot 1 long, .ofSlot 2 short]
    operands ≠ [] ∧ (∀ operand ∈ operands, ∃ length, operand.type.length? = some length) ∧
      ∃ type, concatType .concat operands = .ok type ∧ type.root = .varchar ∧
        type.length? = some maxLength ∧
          ∀ rearranged, rearranged.Perm operands → concatType .concat rearranged = .ok type := by
  intro longest long short operands
  have given : operands ≠ [] := List.cons_ne_nil _ _
  have sized : ∀ operand ∈ operands, ∃ length, operand.type.length? = some length := by
    refine List.forall_mem_cons.2 ⟨⟨4294967295, rfl⟩, ?_⟩
    refine List.forall_mem_cons.2 ⟨⟨2147483648, rfl⟩, ?_⟩
    exact List.forall_mem_singleton.2 ⟨1, rfl⟩
  obtain ⟨type, typed, rootIs, lengthIs, -, ordered⟩ :=
    exists_concatType_of_sized .concat given sized
  exact ⟨given, sized, type, typed, rootIs, lengthIs, ordered⟩

end CharacterString
end OperatorDispatch
