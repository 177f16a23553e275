import Mathlib.Data.List.Forall2
import Mathlib.Order.Defs.Unbundled
import OperatorDispatch.Types.Widening

/-!
# Acceptance of operands

A signature accepts operands position by position.  Where it accepts without being equal, some
operand is strictly widened.  Since nothing widens in a circle, acceptance is a partial order, of
roots and of lists of roots.  Whether two signatures accept some operands in common can be decided.
-/

namespace OperatorDispatch

namespace TypeRoot

theorem accepts_iff (candidate input : TypeRoot) :
    candidate.accepts input = true ↔ candidate = input ∨ input.widensTo candidate = true := by
  simp [accepts]

theorem accepts_self (root : TypeRoot) : root.accepts root = true := by
  simp [accepts]

theorem isNumericPrimitive_of_wideningRank? {root : TypeRoot} {rank : Nat}
    (placed : root.wideningRank? = some rank) : root.isNumericPrimitive = true := by
  cases root <;> first | rfl | contradiction

theorem widensTo_iff (source target : TypeRoot) :
    source.widensTo target = true ↔
      ∃ narrow wide, source.wideningRank? = some narrow ∧ target.wideningRank? = some wide ∧
        narrow < wide := by
  rw [widensTo]
  cases source.wideningRank? <;> cases target.wideningRank? <;> simp

theorem isNumericPrimitive_of_widensTo {source target : TypeRoot}
    (widens : source.widensTo target = true) :
    source.isNumericPrimitive = true ∧ target.isNumericPrimitive = true := by
  obtain ⟨narrow, wide, sourcePlaced, targetPlaced, -⟩ := (widensTo_iff source target).1 widens
  exact ⟨isNumericPrimitive_of_wideningRank? sourcePlaced,
    isNumericPrimitive_of_wideningRank? targetPlaced⟩

theorem widensTo_trans {narrow middle wide : TypeRoot} (first : narrow.widensTo middle = true)
    (second : middle.widensTo wide = true) : narrow.widensTo wide = true := by
  obtain ⟨low, between, lowPlaced, betweenPlaced, ascends⟩ := (widensTo_iff _ _).1 first
  obtain ⟨again, high, againPlaced, highPlaced, ascendsAgain⟩ := (widensTo_iff _ _).1 second
  obtain rfl : between = again := Option.some.inj (betweenPlaced.symm.trans againPlaced)
  exact (widensTo_iff _ _).2 ⟨low, high, lowPlaced, highPlaced, Nat.lt_trans ascends ascendsAgain⟩

theorem not_widensTo_self (root : TypeRoot) : ¬ root.widensTo root = true := by
  rw [widensTo_iff]
  rintro ⟨narrow, wide, narrowPlaced, widePlaced, ascends⟩
  rw [Option.some.inj (narrowPlaced.symm.trans widePlaced)] at ascends
  exact Nat.lt_irrefl wide ascends

theorem accepts_antisymm {left right : TypeRoot} (forwards : left.accepts right = true)
    (backwards : right.accepts left = true) : left = right := by
  rcases (accepts_iff left right).1 forwards with same | narrower
  · exact same
  · rcases (accepts_iff right left).1 backwards with same | wider
    · exact same.symm
    · exact absurd (widensTo_trans narrower wider) (not_widensTo_self right)

theorem accepts_trans {wide middle narrow : TypeRoot} (first : wide.accepts middle = true)
    (second : middle.accepts narrow = true) : wide.accepts narrow = true := by
  rcases (accepts_iff wide middle).1 first with rfl | upper
  · exact second
  · rcases (accepts_iff middle narrow).1 second with rfl | lower
    · exact first
    · exact (accepts_iff wide narrow).2 (.inr (widensTo_trans lower upper))

theorem accepts_tinyInt {root : TypeRoot} (numeric : root.isNumericPrimitive = true) :
    root.accepts .tinyInt = true := by
  cases root <;> first | rfl | contradiction

/-- Some root is accepted by both. -/
def Overlap (left right : TypeRoot) : Prop :=
  ∃ input, left.accepts input = true ∧ right.accepts input = true

/-- Different roots overlap only in the widening chain, where all of them accept its bottom. -/
theorem overlap_iff (left right : TypeRoot) :
    left.Overlap right ↔
      left = right ∨ (left.isNumericPrimitive = true ∧ right.isNumericPrimitive = true) := by
  constructor
  · rintro ⟨input, leftAccepts, rightAccepts⟩
    rcases (accepts_iff left input).1 leftAccepts with rfl | leftWidens
    · rcases (accepts_iff right left).1 rightAccepts with same | rightWidens
      · exact .inl same.symm
      · exact .inr (isNumericPrimitive_of_widensTo rightWidens)
    · obtain ⟨numeric, leftNumeric⟩ := isNumericPrimitive_of_widensTo leftWidens
      rcases (accepts_iff right input).1 rightAccepts with rfl | rightWidens
      · exact .inr ⟨leftNumeric, numeric⟩
      · exact .inr ⟨leftNumeric, (isNumericPrimitive_of_widensTo rightWidens).2⟩
  · rintro (rfl | ⟨leftNumeric, rightNumeric⟩)
    · exact ⟨left, left.accepts_self, left.accepts_self⟩
    · exact ⟨.tinyInt, accepts_tinyInt leftNumeric, accepts_tinyInt rightNumeric⟩

instance (left right : TypeRoot) : Decidable (left.Overlap right) :=
  decidable_of_iff _ (overlap_iff left right).symm

end TypeRoot

namespace Signature

theorem accepts_iff_forall₂ (signature : Signature) (roots : List TypeRoot) :
    signature.accepts roots = true ↔
      List.Forall₂ (fun candidate input => candidate.accepts input = true) signature roots := by
  induction signature generalizing roots with
  | nil => cases roots <;> simp [accepts]
  | cons candidate signature induction =>
      cases roots with
      | nil => simp [accepts]
      | cons input roots => simp [accepts, induction]

theorem accepts_self (roots : List TypeRoot) : Signature.accepts roots roots = true := by
  rw [accepts_iff_forall₂, List.forall₂_same]
  intro root _
  exact root.accepts_self

theorem accepts_antisymm {left right : Signature} (forwards : left.accepts right = true)
    (backwards : right.accepts left = true) : left = right := by
  have paired := (accepts_iff_forall₂ left right).1 forwards
  have reversed := List.Forall₂.flip ((accepts_iff_forall₂ right left).1 backwards)
  rw [← List.forall₂_eq_eq_eq]
  exact List.Forall₂.mp (fun _ _ => TypeRoot.accepts_antisymm) paired reversed

theorem accepts_trans {wide middle narrow : Signature} (first : wide.accepts middle = true)
    (second : middle.accepts narrow = true) : wide.accepts narrow = true := by
  rw [accepts_iff_forall₂] at first second ⊢
  induction first generalizing narrow with
  | nil => exact second
  | cons here _ induction =>
      cases second with
      | cons below rest => exact .cons (TypeRoot.accepts_trans here below) (induction rest)

/-- Signatures are ordered by what they accept. -/
theorem isPartialOrder_accepts :
    IsPartialOrder Signature fun wide narrow => wide.accepts narrow = true where
  refl := accepts_self
  trans _ _ _ := accepts_trans
  antisymm _ _ := accepts_antisymm

/-- Some operands are accepted by both signatures. -/
def Overlap (left right : Signature) : Prop :=
  ∃ roots, left.accepts roots = true ∧ right.accepts roots = true

/-- Each operand can be chosen without regard to the others. -/
theorem overlap_iff_forall₂ (left right : Signature) :
    left.Overlap right ↔ List.Forall₂ TypeRoot.Overlap left right := by
  constructor
  · rintro ⟨roots, leftAccepts, rightAccepts⟩
    rw [accepts_iff_forall₂] at leftAccepts rightAccepts
    induction leftAccepts generalizing right with
    | nil =>
        cases rightAccepts
        exact .nil
    | cons here _ induction =>
        cases rightAccepts with
        | cons there rest => exact .cons ⟨_, here, there⟩ (induction _ rest)
  · intro paired
    induction paired with
    | nil => exact ⟨[], rfl, rfl⟩
    | cons here _ induction =>
        obtain ⟨input, leftAccepts, rightAccepts⟩ := here
        obtain ⟨roots, leftRest, rightRest⟩ := induction
        exact ⟨input :: roots, by simp [accepts, leftAccepts, leftRest],
          by simp [accepts, rightAccepts, rightRest]⟩

instance (left right : Signature) : Decidable (left.Overlap right) :=
  decidable_of_iff _ (overlap_iff_forall₂ left right).symm

theorem length_eq_of_accepts {signature : Signature} {roots : List TypeRoot}
    (accepted : signature.accepts roots = true) : signature.length = roots.length :=
  ((accepts_iff_forall₂ signature roots).1 accepted).length_eq

theorem exists_widensTo_of_accepts {signature : Signature} {roots : List TypeRoot}
    (accepted : signature.accepts roots = true) (other : signature ≠ roots) :
    ∃ (position : Nat) (candidate input : TypeRoot), signature[position]? = some candidate ∧
      roots[position]? = some input ∧ input.widensTo candidate = true := by
  have paired := (accepts_iff_forall₂ signature roots).1 accepted
  clear accepted
  induction paired with
  | nil => exact absurd rfl other
  | @cons candidate input signature roots here _ induction =>
      rcases (TypeRoot.accepts_iff candidate input).1 here with rfl | widens
      · obtain ⟨position, wide, narrow, signatureAt, rootAt, widens⟩ :=
          induction fun same => other (by rw [same])
        exact ⟨position + 1, wide, narrow, by simpa using signatureAt, by simpa using rootAt,
          widens⟩
      · exact ⟨0, candidate, input, rfl, rfl, widens⟩

end Signature
end OperatorDispatch
