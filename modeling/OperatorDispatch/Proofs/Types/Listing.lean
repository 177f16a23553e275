import Mathlib.Data.List.Basic

/-!
# Lists that can be read back

The items of a list are written with a comma and a blank between them.  An item may itself hold
commas, as long as these stand within brackets: a comma outside of all brackets ends an item.  So
the text of a list determines its items.
-/

namespace OperatorDispatch
namespace Listing

/-- The number of open brackets after a character.  There is none after a bracket that closes
nothing, and none after a comma outside of all brackets. -/
def depthAfterChar? : Nat → Char → Option Nat
  | depth, '(' => some (depth + 1)
  | depth + 1, ')' => some depth
  | depth + 1, ',' => some (depth + 1)
  | 0, ')' | 0, ',' => none
  | depth, _ => some depth

/-- The number of open brackets after a word. -/
def depthAfter? (depth : Nat) (word : List Char) : Option Nat :=
  word.foldlM depthAfterChar? depth

/-- A word that can stand in a list: it is not empty, closes what it opens, and no comma stands
outside of its brackets. -/
structure IsItem (word : List Char) : Prop where
  nonempty : word ≠ []
  closed : depthAfter? 0 word = some 0

/-- A word without brackets. -/
def IsFlat (word : List Char) : Prop :=
  '(' ∉ word ∧ ')' ∉ word

/-- A word without brackets and commas. -/
def IsPlain (word : List Char) : Prop :=
  IsFlat word ∧ ',' ∉ word

instance : DecidablePred IsPlain := fun word =>
  inferInstanceAs (Decidable (('(' ∉ word ∧ ')' ∉ word) ∧ ',' ∉ word))

/-- What can follow an item: nothing, or a comma and whatever comes then. -/
def Follows (rest : List Char) : Prop :=
  ∀ char ∈ rest.head?, char = ','

/-! ## Words and brackets -/

theorem depthAfter?_cons (depth : Nat) (char : Char) (word : List Char) :
    depthAfter? depth (char :: word) =
      (depthAfterChar? depth char).bind fun depth => depthAfter? depth word :=
  List.foldlM_cons

theorem depthAfter?_append (depth : Nat) (first second : List Char) :
    depthAfter? depth (first ++ second) =
      (depthAfter? depth first).bind fun depth => depthAfter? depth second :=
  List.foldlM_append

theorem depthAfter?_eq_of_forall {depth : Nat} {word : List Char}
    (stays : ∀ char ∈ word, depthAfterChar? depth char = some depth) :
    depthAfter? depth word = some depth := by
  induction word with
  | nil => rfl
  | cons char word induction =>
      rw [depthAfter?_cons, stays char (.head _)]
      exact induction fun char member => stays char (.tail _ member)

theorem IsFlat.depthAfter?_eq {word : List Char} (flat : IsFlat word) (depth : Nat) :
    depthAfter? (depth + 1) word = some (depth + 1) := by
  refine depthAfter?_eq_of_forall fun char member => ?_
  have unopened : char ≠ '(' := ne_of_mem_of_not_mem member flat.1
  have unclosed : char ≠ ')' := ne_of_mem_of_not_mem member flat.2
  rw [depthAfterChar?.eq_def]
  split <;> simp_all

/-- A plain word opens and closes nothing, at any depth. -/
theorem IsPlain.depthAfter?_eq {word : List Char} (plain : IsPlain word) (depth : Nat) :
    depthAfter? depth word = some depth := by
  refine depthAfter?_eq_of_forall fun char member => ?_
  have unopened : char ≠ '(' := ne_of_mem_of_not_mem member plain.1.1
  have unclosed : char ≠ ')' := ne_of_mem_of_not_mem member plain.1.2
  have unseparated : char ≠ ',' := ne_of_mem_of_not_mem member plain.2
  rw [depthAfterChar?.eq_def]
  split <;> first | rfl | contradiction

theorem IsPlain.append {first second : List Char} (plain : IsPlain first)
    (secondPlain : IsPlain second) : IsPlain (first ++ second) := by
  obtain ⟨⟨unopened, unclosed⟩, unseparated⟩ := plain
  obtain ⟨⟨secondUnopened, secondUnclosed⟩, secondUnseparated⟩ := secondPlain
  simp [IsPlain, IsFlat, *]

theorem IsPlain.isItem {word : List Char} (plain : IsPlain word) (nonempty : word ≠ []) :
    IsItem word :=
  ⟨nonempty, plain.depthAfter?_eq 0⟩

theorem isItem_bracketed {front inside back : List Char} (plain : IsPlain front)
    (flat : IsFlat inside) (backPlain : IsPlain back) :
    IsItem (front ++ '(' :: (inside ++ ')' :: back)) where
  nonempty := by simp
  closed := by
    rw [depthAfter?_append, plain.depthAfter?_eq, Option.bind_some]
    change depthAfter? 1 (inside ++ ')' :: back) = some 0
    rw [depthAfter?_append, flat.depthAfter?_eq, Option.bind_some]
    exact backPlain.depthAfter?_eq 0

/-- The brackets tell what stands before, within and behind them. -/
theorem bracketed_inj {front inside back otherFront otherInside otherBack : List Char}
    (plain : IsPlain front) (flat : IsFlat inside) (backPlain : IsPlain back)
    (same : front ++ '(' :: (inside ++ ')' :: back) =
      otherFront ++ '(' :: (otherInside ++ ')' :: otherBack)) :
    front = otherFront ∧ inside = otherInside ∧ back = otherBack := by
  have unopened : '(' ∉ inside ++ ')' :: back := by
    simp [flat.1, backPlain.1.1]
  obtain ⟨rfl, -, rest⟩ := List.append_cons_inj_of_notMem plain.1.1 unopened |>.1 same
  obtain ⟨rfl, -, rfl⟩ := List.append_cons_inj_of_notMem flat.2 backPlain.1.2 |>.1 rest
  exact ⟨rfl, rfl, rfl⟩

/-! ## Items one after the other -/

/-- No item goes on where another one ends, if what follows can follow an item. -/
theorem IsItem.eq_nil_of_append {word more rest : List Char} (item : IsItem word)
    (longer : IsItem (word ++ more)) (follows : Follows (more ++ rest)) : more = [] := by
  cases more with
  | nil => rfl
  | cons char more =>
      obtain rfl : char = ',' := follows char rfl
      have closed := longer.closed
      rw [depthAfter?_append, item.closed] at closed
      contradiction

/-- An item ends where the first comma outside of its brackets stands. -/
theorem IsItem.append_inj {left right rest otherRest : List Char} (leftItem : IsItem left)
    (rightItem : IsItem right) (follows : Follows rest) (otherFollows : Follows otherRest)
    (same : left ++ rest = right ++ otherRest) : left = right ∧ rest = otherRest := by
  rcases List.append_eq_append_iff.1 same with ⟨more, rfl, rfl⟩ | ⟨more, rfl, rfl⟩
  · simp [leftItem.eq_nil_of_append rightItem follows]
  · simp [rightItem.eq_nil_of_append leftItem otherFollows]

/-- Items with a comma and a blank before each. -/
def separated (items : List (List Char)) : List Char :=
  items.flatMap fun item => ", ".toList ++ item

theorem separated_cons (item : List Char) (items : List (List Char)) :
    separated (item :: items) = ", ".toList ++ (item ++ separated items) :=
  List.append_assoc _ _ _

theorem intercalate_cons (item : List Char) (items : List (List Char)) :
    ", ".toList.intercalate (item :: items) = item ++ separated items := by
  induction items generalizing item with
  | nil => simp [separated]
  | cons next items induction =>
      rw [List.intercalate_cons_cons, induction, separated_cons, List.append_assoc]

theorem follows_separated (items : List (List Char)) : Follows (separated items) := by
  cases items with
  | nil => nofun
  | cons item items =>
      rintro char ⟨⟩
      rfl

theorem notMem_intercalate {char : Char} {items : List (List Char)}
    (other : char ∉ ", ".toList) (absent : ∀ item ∈ items, char ∉ item) :
    char ∉ ", ".toList.intercalate items := by
  cases items with
  | nil => nofun
  | cons item items =>
      obtain ⟨first, later⟩ := List.forall_mem_cons.1 absent
      rw [intercalate_cons, separated, List.mem_append, List.mem_flatMap]
      rintro (member | ⟨next, listed, member⟩)
      · exact first member
      · exact (List.mem_append.1 member).elim other (later next listed)

theorem isFlat_intercalate {items : List (List Char)} (plain : ∀ item ∈ items, IsPlain item) :
    IsFlat (", ".toList.intercalate items) :=
  ⟨notMem_intercalate (by decide) fun item member => (plain item member).1.1,
    notMem_intercalate (by decide) fun item member => (plain item member).1.2⟩

/-! ## One text for one list -/

theorem separated_inj {left right : List (List Char)} (leftItems : ∀ item ∈ left, IsItem item)
    (rightItems : ∀ item ∈ right, IsItem item) (same : separated left = separated right) :
    left = right := by
  induction left generalizing right with
  | nil =>
      cases right with
      | nil => rfl
      | cons item right => contradiction
  | cons first left induction =>
      cases right with
      | nil => contradiction
      | cons item right =>
          rw [separated_cons, separated_cons] at same
          obtain ⟨rfl, rest⟩ := (leftItems first (.head _)).append_inj (rightItems item (.head _))
            (follows_separated left) (follows_separated right) (List.append_cancel_left same)
          rw [induction (fun item member => leftItems item (.tail _ member))
            (fun item member => rightItems item (.tail _ member)) rest]

theorem intercalate_ne_nil {items : List (List Char)} (areItems : ∀ item ∈ items, IsItem item)
    (nonempty : items ≠ []) : ", ".toList.intercalate items ≠ [] := by
  cases items with
  | nil => contradiction
  | cons item items =>
      rw [intercalate_cons]
      exact List.append_ne_nil_of_left_ne_nil (areItems item (.head _)).nonempty _

theorem intercalate_inj {left right : List (List Char)} (leftItems : ∀ item ∈ left, IsItem item)
    (rightItems : ∀ item ∈ right, IsItem item)
    (same : ", ".toList.intercalate left = ", ".toList.intercalate right) : left = right := by
  cases left with
  | nil =>
      by_contra other
      exact intercalate_ne_nil rightItems (Ne.symm other) same.symm
  | cons first left =>
      cases right with
      | nil => exact absurd same (intercalate_ne_nil leftItems (List.cons_ne_nil first left))
      | cons item right =>
          -- With a separator before the first item as well, both lists are read alike.
          refine separated_inj leftItems rightItems ?_
          rw [separated_cons, separated_cons, ← intercalate_cons, ← intercalate_cons, same]

/-- Where no two values share their text, no two lists of values share theirs. -/
theorem intercalate_injective {α : Type} {text : α → String} (injective : text.Injective)
    (items : ∀ value, IsItem (text value).toList) :
    Function.Injective fun values : List α => ", ".intercalate (values.map text) := by
  intro left right same
  have itemsOf (values : List α) : ∀ item ∈ (values.map text).map String.toList, IsItem item := by
    simpa using fun value _ => items value
  have listsEqual := congrArg String.toList same
  simp only [String.toList_intercalate] at listsEqual
  have wordsEqual := intercalate_inj (itemsOf left) (itemsOf right) listsEqual
  have textsEqual := List.map_injective_iff.2 (fun _ _ => String.toList_inj.1) wordsEqual
  exact List.map_injective_iff.2 injective textsEqual

end Listing
end OperatorDispatch
