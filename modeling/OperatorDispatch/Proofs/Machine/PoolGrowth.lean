import OperatorDispatch.Machine.ConstantPool

/-!
# Growth of the constant pool

Adding constants leaves those that are already there in place.  A position that an instruction may
name denotes the constant it was given for, and no position is given only if there is no room.
-/

namespace OperatorDispatch
namespace ConstantPool

/-- The later pool begins with the constants of the earlier one. -/
def Extends (earlier later : ConstantPool) : Prop :=
  earlier.constants.toList <+: later.constants.toList

theorem Extends.refl (pool : ConstantPool) : pool.Extends pool :=
  List.prefix_refl _

theorem Extends.trans {first second third : ConstantPool} (before : first.Extends second)
    (after : second.Extends third) : first.Extends third :=
  List.IsPrefix.trans before after

theorem Extends.get? {earlier later : ConstantPool} (grown : earlier.Extends later)
    {position : Nat} {constant : Constant} (held : earlier.get? position = some constant) :
    later.get? position = some constant := by
  rw [ConstantPool.get?, ← Array.getElem?_toList] at held ⊢
  obtain ⟨added, later_eq⟩ := grown
  rw [← later_eq, List.getElem?_append_left (List.getElem?_eq_some_iff.1 held).1]
  exact held

theorem get?_of_find? {pool : ConstantPool} {constant : Constant} {position : Nat}
    (found : pool.find? constant = some position) : pool.get? position = some constant :=
  (pool.find?_eq_some_iff constant position).1 found

theorem extends_push (pool : ConstantPool) (constant : Constant)
    (absent : pool.find? constant = none) : pool.Extends (pool.push constant absent) := by
  rw [Extends, push, Array.toList_push]
  exact List.prefix_append _ _

theorem get?_push_size (pool : ConstantPool) (constant : Constant)
    (absent : pool.find? constant = none) :
    (pool.push constant absent).get? pool.size = some constant :=
  Array.getElem?_push_size

theorem size_push (pool : ConstantPool) (constant : Constant)
    (absent : pool.find? constant = none) :
    (pool.push constant absent).size = pool.size + 1 :=
  Array.size_push constant

theorem add_of_find?_eq_none {pool : ConstantPool} {constant : Constant}
    (absent : pool.find? constant = none) :
    pool.add constant = (pool.size, pool.push constant absent) := by
  rw [add]
  split
  · next here found => simp [absent] at found
  · rfl

theorem toNat_toUInt16 {position : Nat} (named : position < addressable) :
    position.toUInt16.toNat = position :=
  UInt16.toNat_ofNat_of_lt' named

/-- The position that an instruction gets denotes the constant, and at most one constant was
added. -/
theorem intern?_eq_some {pool after : ConstantPool} {constant : Constant} {position : UInt16}
    (interned : pool.intern? constant = some (position, after)) :
    pool.Extends after ∧ after.get? position.toNat = some constant ∧
      after.size ≤ pool.size + 1 := by
  rw [intern?] at interned
  cases found : pool.find? constant with
  | some held =>
      simp only [found] at interned
      split at interned
      · next named =>
          obtain ⟨rfl, rfl⟩ := Prod.mk.inj (Option.some.inj interned)
          refine ⟨.refl pool, ?_, Nat.le_succ _⟩
          rw [toNat_toUInt16 named]
          exact get?_of_find? found
      · contradiction
  | none =>
      simp only [found] at interned
      split at interned
      · next room =>
          rw [add_of_find?_eq_none found] at interned
          obtain ⟨rfl, rfl⟩ := Prod.mk.inj (Option.some.inj interned)
          have bounded := Nat.le_of_eq (size_push pool constant found)
          refine ⟨extends_push pool constant found, ?_, bounded⟩
          rw [toNat_toUInt16 room]
          exact get?_push_size pool constant found
      · contradiction

/-- No position is given only by a pool that has used up all positions. -/
theorem addressable_le_of_intern? {pool : ConstantPool} {constant : Constant}
    (refused : pool.intern? constant = none) : addressable ≤ pool.size := by
  rw [intern?] at refused
  cases found : pool.find? constant with
  | some held =>
      simp only [found] at refused
      split at refused
      · contradiction
      · next beyond =>
          have within : held < pool.size :=
            (Array.getElem?_eq_some_iff.1 (get?_of_find? found)).1
          omega
  | none =>
      simp only [found] at refused
      split at refused
      · contradiction
      · next full => exact Nat.le_of_not_lt full

end ConstantPool
end OperatorDispatch
