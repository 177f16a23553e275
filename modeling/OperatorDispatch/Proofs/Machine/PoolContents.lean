import Mathlib.Data.Finset.Card
import OperatorDispatch.Proofs.Machine.PoolGrowth

/-!
# What a constant pool holds

The constants of a pool are distinct and decide every search.  A constant gets a position exactly
if it is there already or the pool is not full.  What a pool lacks of some constants is counted
once for each distinct constant, and truncating to the old size undoes any growth.
-/

namespace OperatorDispatch
namespace ConstantPool

/-! ## Searching -/

theorem find?_congr {left right : ConstantPool} (same : left.constants = right.constants)
    (constant : Constant) : left.find? constant = right.find? constant := by
  apply Option.ext
  intro position
  rw [find?_eq_some_iff, find?_eq_some_iff, get?, get?, same]

theorem find?_eq_none_iff {pool : ConstantPool} {constant : Constant} :
    pool.find? constant = none ↔ constant ∉ pool.constants := by
  rw [Array.mem_iff_getElem?, Option.eq_none_iff_forall_ne_some, not_exists]
  exact forall_congr' fun position => not_congr (pool.find?_eq_some_iff constant position)

theorem lt_size_of_find? {pool : ConstantPool} {constant : Constant} {position : Nat}
    (found : pool.find? constant = some position) : position < pool.size :=
  (Array.getElem?_eq_some_iff.1 (get?_of_find? found)).1

theorem nodup_constants (pool : ConstantPool) : pool.constants.toList.Nodup := by
  rw [List.nodup_iff_getElem?_ne_getElem?]
  intro first second ordered within same
  obtain ⟨constant, held⟩ : ∃ constant, pool.constants.toList[second]? = some constant :=
    ⟨_, List.getElem?_eq_getElem within⟩
  have firstHeld : pool.find? constant = some first := by
    rw [find?_eq_some_iff, get?, ← Array.getElem?_toList, same, held]
  have secondHeld : pool.find? constant = some second := by
    rw [find?_eq_some_iff, get?, ← Array.getElem?_toList, held]
  have equal := Option.some.inj (firstHeld.symm.trans secondHeld)
  omega

theorem find?_push (pool : ConstantPool) {constant : Constant}
    (absent : pool.find? constant = none) (other : Constant) :
    (pool.push constant absent).find? other = none ↔
      pool.find? other = none ∧ other ≠ constant := by
  rw [find?_eq_none_iff, find?_eq_none_iff, push, Array.mem_push, not_or]

/-! ## Truncating -/

/-- Truncating to the size before any growth restores the constants. -/
theorem constants_truncate {earlier later : ConstantPool} (grown : earlier.Extends later) :
    (later.truncate earlier.size).constants = earlier.constants := by
  obtain ⟨added, later_eq⟩ := grown
  have kept : (later.constants.take earlier.size).toList = earlier.constants.toList := by
    rw [Array.take_eq_extract, Array.toList_extract, List.extract_eq_take_drop, ← later_eq, size,
      ← Array.length_toList]
    simp
  exact Array.toList_inj.1 kept

/-! ## Interning -/

theorem intern?_of_find?_eq_some {pool : ConstantPool} {constant : Constant} {position : Nat}
    (found : pool.find? constant = some position) :
    pool.intern? constant =
      if position < addressable then some (position.toUInt16, pool) else none := by
  rw [intern?, found]

theorem intern?_of_find?_eq_none {pool : ConstantPool} {constant : Constant}
    (absent : pool.find? constant = none) :
    pool.intern? constant =
      if pool.size < addressable then some (pool.size.toUInt16, pool.push constant absent)
      else none := by
  rw [intern?, absent, add_of_find?_eq_none absent]

/-- Pools with the same constants give the same positions and hold the same constants again. -/
theorem intern?_congr {left right : ConstantPool} (same : left.constants = right.constants)
    (constant : Constant) :
    (left.intern? constant).map (fun (position, pool) => (position, pool.constants)) =
      (right.intern? constant).map fun (position, pool) => (position, pool.constants) := by
  have sizes : left.size = right.size := congrArg Array.size same
  have searched := find?_congr same constant
  cases found : right.find? constant with
  | some position =>
      rw [intern?_of_find?_eq_some found, intern?_of_find?_eq_some (searched.trans found)]
      by_cases named : position < addressable
      · simp [named, same]
      · simp [named]
  | none =>
      have absent : left.find? constant = none := searched.trans found
      rw [intern?_of_find?_eq_none found, intern?_of_find?_eq_none absent, sizes]
      by_cases room : right.size < addressable
      · simp [room, push, same]
      · simp [room]

/-! ## Counting what is missing -/

/-- The constants that the pool does not hold, each of them once. -/
def missing (pool : ConstantPool) (constants : List Constant) : Finset Constant :=
  constants.toFinset.filter fun constant => pool.find? constant = none

theorem missing_nil (pool : ConstantPool) : pool.missing [] = ∅ := rfl

theorem missing_cons_of_find? {pool : ConstantPool} {constant : Constant} {position : Nat}
    (found : pool.find? constant = some position) (constants : List Constant) :
    pool.missing (constant :: constants) = pool.missing constants := by
  rw [missing, List.toFinset_cons, Finset.filter_insert, found]
  rfl

/-- A constant that is added is no longer missing, and all others are missing as before. -/
theorem missing_push (pool : ConstantPool) {constant : Constant}
    (absent : pool.find? constant = none) (constants : List Constant) :
    (pool.push constant absent).missing constants = (pool.missing constants).erase constant := by
  ext other
  simp only [missing, Finset.mem_filter, Finset.mem_erase, find?_push]
  tauto

theorem card_missing_cons {pool : ConstantPool} {constant : Constant}
    (absent : pool.find? constant = none) (constants : List Constant) :
    (pool.missing (constant :: constants)).card =
      ((pool.push constant absent).missing constants).card + 1 := by
  have inserted : pool.missing (constant :: constants) =
      insert constant (pool.missing constants) := by
    rw [missing, List.toFinset_cons, Finset.filter_insert, if_pos absent, missing]
  have split : insert constant (pool.missing constants) =
      insert constant ((pool.missing constants).erase constant) := by
    ext other
    simp only [Finset.mem_insert, Finset.mem_erase]
    tauto
  rw [inserted, missing_push, split]
  exact Finset.card_insert_of_notMem (Finset.notMem_erase _ _)

end ConstantPool
end OperatorDispatch
