import OperatorDispatch.Operator.Basic
import Std.Data.HashMap

/-!
# The constant pool

Instructions refer to constants by their position in a pool.  The pool holds each constant once:
adding a constant that is already there gives its position.  Constants can be forgotten from the
end, and the others keep their positions.  Doubles are told apart by their bit patterns, so the two
zeros differ and every NaN is itself.
-/

namespace OperatorDispatch

/-- A value that instructions refer to. -/
inductive Constant where
  /-- An integer of any width. -/
  | int (value : Int64)
  /-- A double, by its bit pattern. -/
  | double (bits : UInt64)
  /-- A character string. -/
  | string (text : String)
  /-- The identity of an operator. -/
  | operator (identity : UInt64)
  deriving DecidableEq, Repr, Hashable

/-- Constants with the position of each. -/
structure ConstantPool where
  /-- The constants, oldest first. -/
  constants : Array Constant := #[]
  /-- The position of each constant. -/
  positions : Std.HashMap Constant Nat := ∅
  /-- A constant has a position exactly when it stands there. -/
  indexed : ∀ (constant : Constant) (position : Nat),
    positions[constant]? = some position ↔ constants[position]? = some constant := by simp

namespace ConstantPool

/-- The number of constants. -/
def size (pool : ConstantPool) : Nat :=
  pool.constants.size

/-- Whether the pool holds no constant. -/
def isEmpty (pool : ConstantPool) : Bool :=
  pool.constants.isEmpty

/-- The constant at a position. -/
def get? (pool : ConstantPool) (position : Nat) : Option Constant :=
  pool.constants[position]?

/-- The position of a constant. -/
def find? (pool : ConstantPool) (constant : Constant) : Option Nat :=
  pool.positions[constant]?

theorem find?_eq_some_iff (pool : ConstantPool) (constant : Constant) (position : Nat) :
    pool.find? constant = some position ↔ pool.get? position = some constant :=
  pool.indexed constant position

/-- A new constant after all others stands where its position says. -/
theorem indexed_push (pool : ConstantPool) (constant : Constant)
    (absent : pool.find? constant = none) (other : Constant) (position : Nat) :
    (pool.positions.insert constant pool.size)[other]? = some position ↔
      (pool.constants.push constant)[position]? = some other := by
  rw [Std.HashMap.getElem?_insert, Array.getElem?_push]
  by_cases same : constant = other
  · subst same
    simp only [beq_self_eq_true, ↓reduceIte, Option.some.injEq]
    constructor
    · intro last
      simp [← last, size]
    · intro held
      split at held
      · next last => exact last.symm
      · have found := (pool.find?_eq_some_iff constant position).2 held
        simp [absent] at found
  · simp only [beq_iff_eq, same, ↓reduceIte, pool.indexed]
    constructor
    · intro held
      have bound := (Array.getElem?_eq_some_iff.1 held).1
      rw [if_neg (Nat.ne_of_gt bound).symm]
      exact held
    · intro held
      split at held
      · exact absurd (Option.some.inj held) same
      · exact held

/-- The pool with a constant that it did not hold, in the position after all others. -/
def push (pool : ConstantPool) (constant : Constant) (absent : pool.find? constant = none) :
    ConstantPool where
  constants := pool.constants.push constant
  positions := pool.positions.insert constant pool.size
  indexed := pool.indexed_push constant absent

/-- The position of a constant, and the pool that holds it there. -/
def add (pool : ConstantPool) (constant : Constant) : Nat × ConstantPool :=
  match found : pool.find? constant with
  | some position => (position, pool)
  | none => (pool.size, pool.push constant found)

/-- Adds constants one after the other. -/
def addAll (pool : ConstantPool) (constants : List Constant) : ConstantPool :=
  constants.foldl (fun pool constant => (pool.add constant).2) pool

/-- A constant that is erased has no position; all others keep theirs. -/
theorem getElem?_foldl_erase (positions : Std.HashMap Constant Nat) (erased : List Constant)
    (constant : Constant) :
    (erased.foldl Std.HashMap.erase positions)[constant]? =
      if constant ∈ erased then none else positions[constant]? := by
  induction erased generalizing positions with
  | nil => simp
  | cons first rest ih =>
    rw [List.foldl_cons, ih, Std.HashMap.getElem?_erase]
    by_cases same : first = constant
    · simp [same]
    · simp [same, Ne.symm same]

theorem getElem?_take (constants : Array Constant) (size position : Nat) :
    (constants.take size)[position]? = if position < size then constants[position]? else none := by
  simp only [Array.getElem?_extract, Nat.sub_zero, Nat.zero_add, Nat.lt_min]
  by_cases within : position < constants.size
  · simp only [within, and_true]
  · simp only [within, and_false, ↓reduceIte]
    rw [Array.getElem?_eq_none (Nat.le_of_not_lt within), ite_self]

theorem getElem?_drop (constants : Array Constant) (size position : Nat) :
    (constants.drop size)[position]? = constants[size + position]? := by
  simp only [Array.getElem?_extract, Nat.min_self]
  split
  · rfl
  · next outside =>
    exact (Array.getElem?_eq_none (by omega)).symm

/-- The constants that are not dropped keep their positions, and no others have one. -/
theorem indexed_truncate (pool : ConstantPool) (size : Nat) (constant : Constant)
    (position : Nat) :
    ((pool.constants.drop size).toList.foldl Std.HashMap.erase pool.positions)[constant]? =
        some position ↔
      (pool.constants.take size)[position]? = some constant := by
  rw [getElem?_foldl_erase, getElem?_take]
  by_cases kept : position < size
  · rw [if_pos kept]
    split
    · next dropped =>
      obtain ⟨later, held⟩ := Array.mem_iff_getElem?.1 (Array.mem_toList_iff.1 dropped)
      rw [getElem?_drop] at held
      have elsewhere := (pool.indexed constant _).2 held
      constructor
      · simp
      · intro here
        have both := elsewhere.symm.trans ((pool.indexed constant position).2 here)
        have same := Option.some.inj both
        omega
    · exact pool.indexed constant position
  · rw [if_neg kept]
    split
    · simp
    · next undropped =>
      constructor
      · intro here
        refine absurd (Array.mem_toList_iff.2 ?_) undropped
        refine Array.mem_iff_getElem?.2 ⟨position - size, ?_⟩
        rw [getElem?_drop, Nat.add_sub_cancel' (Nat.le_of_not_lt kept)]
        exact (pool.indexed constant position).1 here
      · simp

/-- Forgets every constant from the given position on. -/
def truncate (pool : ConstantPool) (size : Nat) : ConstantPool where
  constants := pool.constants.take size
  positions := (pool.constants.drop size).toList.foldl Std.HashMap.erase pool.positions
  indexed := pool.indexed_truncate size

/-- The number of positions that an instruction can name. -/
def addressable : Nat := 65536

/-- The position of a constant that an instruction can name, adding the constant if it is new and
there is room. -/
def intern? (pool : ConstantPool) (constant : Constant) : Option (UInt16 × ConstantPool) :=
  match pool.find? constant with
  | some position => if position < addressable then some (position.toUInt16, pool) else none
  | none =>
      if pool.size < addressable then
        let (position, pool) := pool.add constant
        some (position.toUInt16, pool)
      else
        none

end ConstantPool
end OperatorDispatch
