import Mathlib.Data.List.Nodup
import OperatorDispatch.Proofs.Machine.PoolContents

/-!
# The history of a constant pool

Any sequence of additions and truncations leaves the list of constants that the same changes make of
a plain list.  The pool answers from this list: it finds a constant where the list has it, adds only
what the list lacks, and forgets exactly what it is asked to forget.
-/

namespace OperatorDispatch

/-- A change of a pool. -/
inductive PoolChange where
  /-- Adds a constant, if it is not there yet. -/
  | add (constant : Constant)
  /-- Forgets every constant from the given position on. -/
  | truncate (size : Nat)

/-- What the change makes of a plain list of constants. -/
def PoolChange.onList (held : List Constant) : PoolChange → List Constant
  | add constant => if constant ∈ held then held else held ++ [constant]
  | truncate size => held.take size

namespace ConstantPool

theorem indexed_empty (constant : Constant) (position : Nat) :
    (∅ : Std.HashMap Constant Nat)[constant]? = some position ↔
      (#[] : Array Constant)[position]? = some constant := by
  simp

/-- The pool without constants. -/
def empty : ConstantPool :=
  ⟨#[], ∅, indexed_empty⟩

/-- The pool after a change. -/
def after (pool : ConstantPool) : PoolChange → ConstantPool
  | .add constant => (pool.add constant).2
  | .truncate size => pool.truncate size

/-- The pool after changes, one after the other. -/
def afterAll (pool : ConstantPool) (changes : List PoolChange) : ConstantPool :=
  changes.foldl after pool

/-! ## One addition -/

theorem add_of_find?_eq_some {pool : ConstantPool} {constant : Constant} {position : Nat}
    (found : pool.find? constant = some position) : pool.add constant = (position, pool) := by
  rw [add]
  split
  · next here held =>
      obtain rfl : position = here := Option.some.inj (found.symm.trans held)
      rfl
  · next absent => simp [found] at absent

theorem extends_add (pool : ConstantPool) (constant : Constant) :
    pool.Extends (pool.add constant).2 := by
  cases found : pool.find? constant with
  | some position =>
      rw [add_of_find?_eq_some found]
      exact .refl pool
  | none =>
      rw [add_of_find?_eq_none found]
      exact pool.extends_push constant found

theorem extends_addAll (pool : ConstantPool) (constants : List Constant) :
    pool.Extends (pool.addAll constants) := by
  induction constants generalizing pool with
  | nil => exact .refl pool
  | cons constant constants induction =>
      exact (pool.extends_add constant).trans (induction (pool.add constant).2)

theorem find?_add (pool : ConstantPool) (constant : Constant) :
    (pool.add constant).2.find? constant = some (pool.add constant).1 := by
  cases found : pool.find? constant with
  | some position => rw [add_of_find?_eq_some found, found]
  | none =>
      rw [add_of_find?_eq_none found]
      exact (find?_eq_some_iff _ _ _).2 (get?_push_size pool constant found)

/-! ## Changes of a list -/

theorem toList_add (pool : ConstantPool) (constant : Constant) :
    (pool.add constant).2.constants.toList =
      if constant ∈ pool.constants.toList then pool.constants.toList
      else pool.constants.toList ++ [constant] := by
  cases found : pool.find? constant with
  | some position =>
      have held : constant ∈ pool.constants :=
        Array.mem_of_getElem? (get?_of_find? found)
      rw [if_pos (Array.mem_toList_iff.2 held), add_of_find?_eq_some found]
  | none =>
      have absent : constant ∉ pool.constants := find?_eq_none_iff.1 found
      rw [if_neg (mt Array.mem_toList_iff.1 absent), add_of_find?_eq_none found]
      exact Array.toList_push

theorem toList_truncate (pool : ConstantPool) (size : Nat) :
    (pool.truncate size).constants.toList = pool.constants.toList.take size := by
  change (pool.constants.take size).toList = _
  rw [Array.take_eq_extract, Array.toList_extract, List.extract_eq_take_drop, List.drop_zero,
    Nat.sub_zero]

theorem toList_after (pool : ConstantPool) (change : PoolChange) :
    (pool.after change).constants.toList = change.onList pool.constants.toList := by
  cases change with
  | add constant => exact pool.toList_add constant
  | truncate size => exact pool.toList_truncate size

/-- Changes of a pool are changes of the list of its constants. -/
theorem toList_afterAll (pool : ConstantPool) (changes : List PoolChange) :
    (pool.afterAll changes).constants.toList =
      changes.foldl PoolChange.onList pool.constants.toList := by
  induction changes generalizing pool with
  | nil => rfl
  | cons change changes induction =>
      rw [List.foldl_cons, ← toList_after]
      exact induction (pool.after change)

theorem idxOf?_eq_some_iff {held : List Constant} (distinct : held.Nodup) {constant : Constant}
    {position : Nat} : held.idxOf? constant = some position ↔ held[position]? = some constant := by
  rw [List.idxOf?_eq_some_iff]
  constructor
  · rintro ⟨within, here, -⟩
    exact List.getElem?_eq_some_iff.2 ⟨within, here⟩
  · intro found
    obtain ⟨within, here⟩ := List.getElem?_eq_some_iff.1 found
    refine ⟨within, here, fun earlier before same => ?_⟩
    have equal := (distinct.getElem_inj_iff).1 (same.trans here.symm)
    omega

/-- The pool answers as the list of its constants does. -/
structure Represents (pool : ConstantPool) (held : List Constant) : Prop where
  distinct : held.Nodup
  size_eq : pool.size = held.length
  get?_eq : ∀ position, pool.get? position = held[position]?
  find?_eq : ∀ constant, pool.find? constant = held.idxOf? constant
  /-- A constant is found exactly where it stands. -/
  find?_iff : ∀ constant position,
    pool.find? constant = some position ↔ pool.get? position = some constant
  find?_none_iff : ∀ constant, pool.find? constant = none ↔ constant ∉ held
  /-- A word of 32 bits names every position while there are fewer than 2³² constants. -/
  named : pool.size < UInt32.size → ∀ constant position, pool.find? constant = some position →
    position.toUInt32.toNat = position
  /-- Adding gives the position at which the constant is found from then on. -/
  find?_add : ∀ constant, (pool.add constant).2.find? constant = some (pool.add constant).1
  add_held : ∀ constant position, pool.find? constant = some position →
    pool.add constant = (position, pool)
  add_new : ∀ constant, pool.find? constant = none →
    (pool.add constant).1 = pool.size ∧
      (pool.add constant).2.constants.toList = held ++ [constant]
  /-- Adding never changes what a position denotes. -/
  get?_add : ∀ constant position other, pool.get? position = some other →
    (pool.add constant).2.get? position = some other
  /-- Whatever is added, truncating to the old size restores all answers. -/
  truncate_addAll : ∀ added,
    let restored := (pool.addAll added).truncate pool.size
    restored.constants.toList = held ∧ ∀ constant, restored.find? constant = pool.find? constant

theorem represents_toList (pool : ConstantPool) : pool.Represents pool.constants.toList where
  distinct := pool.nodup_constants
  size_eq := Array.length_toList.symm
  get?_eq position := Array.getElem?_toList.symm
  find?_eq constant := by
    apply Option.ext
    intro position
    rw [find?_eq_some_iff, idxOf?_eq_some_iff pool.nodup_constants, get?, Array.getElem?_toList]
  find?_iff := pool.find?_eq_some_iff
  find?_none_iff constant := by rw [find?_eq_none_iff, Array.mem_toList_iff]
  named few constant position found :=
    UInt32.toNat_ofNat_of_lt' (Nat.lt_trans (lt_size_of_find? found) few)
  find?_add := pool.find?_add
  add_held _ _ := add_of_find?_eq_some
  add_new constant absent := by
    rw [add_of_find?_eq_none absent]
    exact ⟨rfl, Array.toList_push⟩
  get?_add constant _ _ := (pool.extends_add constant).get?
  truncate_addAll added := by
    have restored := constants_truncate (pool.extends_addAll added)
    exact ⟨congrArg Array.toList restored, find?_congr restored⟩

/-- After any changes of the empty pool it answers as the list to which the same changes lead from
the empty list. -/
theorem represents_afterAll (changes : List PoolChange) :
    (empty.afterAll changes).Represents (changes.foldl PoolChange.onList []) := by
  have listed : (empty.afterAll changes).constants.toList = changes.foldl PoolChange.onList [] :=
    toList_afterAll empty changes
  rw [← listed]
  exact represents_toList _

end ConstantPool
end OperatorDispatch
