import Mathlib.Data.List.Nodup
import OperatorDispatch.Proofs.Types.Listing
import OperatorDispatch.Types.Logical
import OperatorDispatch.Types.Widening

/-!
# Texts of types can be read back

The text of a type consists of a keyword, its parameters in brackets, the zone and the mark of its
nullability.  The brackets separate these parts, so the text determines the type.  The commas of a
type stand within its brackets, so the text of a list of types determines the types as well.
-/

namespace OperatorDispatch

open Listing

/-! ## The parts of a text -/

namespace TypeRoot

/-- The words before the parameters. -/
def keyword : TypeRoot → String
  | timestampWithTimeZone => "TIMESTAMP"
  | root => root.name

/-- The words behind the parameters. -/
def zone : TypeRoot → String
  | timestampWithTimeZone => " WITH TIME ZONE"
  | _ => ""

theorem keyword_append_zone (root : TypeRoot) : root.keyword ++ root.zone = root.name := by
  cases root <;> rfl

theorem mem_all (root : TypeRoot) : root ∈ all := by
  cases root <;> decide

theorem isPlain_name (root : TypeRoot) : IsPlain root.name.toList := by
  cases root <;> decide

theorem name_ne_nil (root : TypeRoot) : root.name.toList ≠ [] := by
  cases root <;> decide

theorem not_admits_precision {root : TypeRoot} {length : UInt32} {digits : UInt8}
    (admitted : root.admits (.length length) = true) : ¬root.admits (.precision digits) = true := by
  cases root <;> simp_all [admits, defaultParams]

theorem isPlain_keyword (root : TypeRoot) : IsPlain root.keyword.toList := by
  rw [keyword.eq_def]
  split
  · decide
  · exact root.isPlain_name

theorem isPlain_zone (root : TypeRoot) : IsPlain root.zone.toList := by
  rw [zone.eq_def]
  split <;> decide

end TypeRoot

namespace LogicalType

/-- The numbers between the brackets; without any, there are no brackets. -/
def numbers (type : LogicalType) : List Nat :=
  match type.params with
  | .none => []
  | .length length => [length.toNat]
  | .decimal precision scale => [precision.toNat, scale.toNat]
  | .precision digits => [digits.toNat]

/-- What stands between the brackets. -/
def numbersText (numbers : List Nat) : String :=
  ", ".intercalate (numbers.map toString)

/-- The mark of the nullability. -/
def mark (nullable : Bool) : String :=
  if nullable then "" else " NOT NULL"

variable {type : LogicalType}

theorem text_of_bare (bare : type.numbers = []) :
    type.text = type.root.name ++ mark type.nullable := by
  obtain ⟨root, params, nullable, admitted⟩ := type
  cases params with
  | none => rfl
  | _ => contradiction

theorem text_of_bracketed (bracketed : type.numbers ≠ []) :
    type.text = type.root.keyword ++ "(" ++ numbersText type.numbers ++ ")" ++
      (type.root.zone ++ mark type.nullable) := by
  obtain ⟨root, params, nullable, admitted⟩ := type
  -- Only the zoned timestamp has words on both sides, and its parameters cannot be chosen.
  by_cases zoned : root = .timestampWithTimeZone
  · subst zoned
    obtain rfl : params = .precision 6 := by
      simpa [TypeRoot.admits, TypeRoot.defaultParams] using admitted
    cases nullable <;> rfl
  · have keyword : root.keyword = root.name := by
      rw [TypeRoot.keyword]
      exact zoned
    have zone : root.zone = "" := by
      rw [TypeRoot.zone]
      exact zoned
    have marked : text ⟨root, params, nullable, admitted⟩ = baseText root params ++ mark nullable :=
      rfl
    rw [marked, keyword, zone, String.empty_append]
    congr 1
    cases params with
    | none => contradiction
    | length length => rfl
    | decimal precision scale =>
        simp [baseText, numbers, numbersText, String.intercalate_cons_cons, String.append_assoc]
    | precision digits =>
        rw [baseText]
        · rfl
        · exact zoned

/-! ## Types as items of a list -/

theorem isPlain_toString (number : Nat) : IsPlain (toString number).toList := by
  have digit : ∀ char ∈ (toString number).toList, char.isDigit = true := fun char member =>
    Nat.isDigit_of_mem_toDigits (by decide) (by decide) (Nat.toList_repr ▸ member)
  refine ⟨⟨?_, ?_⟩, ?_⟩ <;> exact fun member => absurd (digit _ member) (by decide)

theorem toString_ne_nil (number : Nat) : (toString number).toList ≠ [] :=
  fun empty => Nat.repr_ne_empty (String.toList_inj.1 empty)

theorem isPlain_mark (nullable : Bool) : IsPlain (mark nullable).toList := by
  cases nullable <;> decide

theorem isPlain_ending (type : LogicalType) :
    IsPlain (type.root.zone ++ mark type.nullable).toList := by
  rw [String.toList_append]
  exact type.root.isPlain_zone.append (isPlain_mark type.nullable)

theorem isFlat_numbersText (numbers : List Nat) : IsFlat (numbersText numbers).toList := by
  rw [numbersText, String.toList_intercalate]
  exact isFlat_intercalate (by simpa using fun number _ => isPlain_toString number)

theorem isPlain_text_of_bare (bare : type.numbers = []) : IsPlain type.text.toList := by
  rw [text_of_bare bare, String.toList_append]
  exact type.root.isPlain_name.append (isPlain_mark type.nullable)

theorem toList_text_of_bracketed (bracketed : type.numbers ≠ []) :
    type.text.toList = type.root.keyword.toList ++ '(' :: ((numbersText type.numbers).toList ++
      ')' :: (type.root.zone ++ mark type.nullable).toList) := by
  rw [text_of_bracketed bracketed]
  simp

/-- No comma of a type stands outside of its brackets. -/
theorem isItem_text (type : LogicalType) : IsItem type.text.toList := by
  by_cases bare : type.numbers = []
  · refine (isPlain_text_of_bare bare).isItem ?_
    rw [text_of_bare bare, String.toList_append]
    exact List.append_ne_nil_of_left_ne_nil type.root.name_ne_nil _
  · rw [toList_text_of_bracketed bare]
    exact isItem_bracketed type.root.isPlain_keyword (isFlat_numbersText _) type.isPlain_ending

/-- Brackets are written exactly when there are numbers to put between them. -/
theorem opening_mem_text_iff (type : LogicalType) : '(' ∈ type.text.toList ↔ type.numbers ≠ [] := by
  refine ⟨fun opened bare => (isPlain_text_of_bare bare).1.1 opened, fun bracketed => ?_⟩
  rw [toList_text_of_bracketed bracketed]
  exact List.mem_append_right _ (.head _)

/-! ## One text for one type -/

theorem toString_injective : Function.Injective (toString : Nat → String) := by
  have readsBack : Function.LeftInverse (fun text : String => Nat.ofDigitChars 10 text.toList 0)
      (toString : Nat → String) := by
    intro number
    change Nat.ofDigitChars 10 number.repr.toList 0 = number
    rw [Nat.toList_repr, Nat.ofDigitChars_toDigits (by decide) (by decide)]
  exact readsBack.injective

theorem numbersText_injective : Function.Injective numbersText :=
  intercalate_injective toString_injective fun number =>
    (isPlain_toString number).isItem (toString_ne_nil number)

theorem eq_of_numbers {left right : LogicalType} (roots : left.root = right.root)
    (nullables : left.nullable = right.nullable) (same : left.numbers = right.numbers) :
    left = right := by
  obtain ⟨root, params, nullable, admitted⟩ := left
  obtain ⟨otherRoot, otherParams, otherNullable, otherAdmitted⟩ := right
  obtain rfl : root = otherRoot := roots
  obtain rfl : nullable = otherNullable := nullables
  -- A length and a precision are both one number; no root takes both.
  obtain rfl : params = otherParams := by
    cases params with
    | none =>
        cases otherParams with
        | none => rfl
        | _ => contradiction
    | length length =>
        cases otherParams with
        | length otherLength => rw [UInt32.toNat_inj.1 (List.singleton_inj.1 same)]
        | precision digits => exact absurd otherAdmitted (TypeRoot.not_admits_precision admitted)
        | none | decimal precision scale => simp [numbers] at same
    | decimal precision scale =>
        cases otherParams with
        | decimal otherPrecision otherScale =>
            obtain ⟨precisions, scales⟩ := List.cons_eq_cons.1 same
            rw [UInt8.toNat_inj.1 precisions, UInt8.toNat_inj.1 (List.singleton_inj.1 scales)]
        | _ => simp [numbers] at same
    | precision digits =>
        cases otherParams with
        | precision otherDigits => rw [UInt8.toNat_inj.1 (List.singleton_inj.1 same)]
        | length length => exact absurd admitted (TypeRoot.not_admits_precision otherAdmitted)
        | none | decimal precision scale => simp [numbers] at same
  rfl

/-- Every root with either nullability. -/
def headings : List (TypeRoot × Bool) :=
  TypeRoot.all.flatMap fun root => [(root, true), (root, false)]

theorem mem_headings (root : TypeRoot) (nullable : Bool) : (root, nullable) ∈ headings :=
  List.mem_flatMap.2 ⟨root, root.mem_all, by cases nullable <;> simp⟩

theorem nodup_headings :
    (headings.map fun (root, nullable) => root.name ++ mark nullable).Nodup := by
  decide +kernel

/-- No root followed by its mark reads like another one. -/
theorem heading_inj {root otherRoot : TypeRoot} {nullable otherNullable : Bool}
    (same : root.name ++ mark nullable = otherRoot.name ++ mark otherNullable) :
    root = otherRoot ∧ nullable = otherNullable :=
  Prod.mk.inj (List.inj_on_of_nodup_map nodup_headings (mem_headings root nullable)
    (mem_headings otherRoot otherNullable) same)

theorem text_injective : Function.Injective text := by
  intro left right same
  have bracketsAlike : left.numbers ≠ [] ↔ right.numbers ≠ [] := by
    rw [← opening_mem_text_iff, ← opening_mem_text_iff, same]
  by_cases bare : left.numbers = []
  · have otherBare : right.numbers = [] := by
      by_contra bracketed
      exact bracketsAlike.2 bracketed bare
    rw [text_of_bare bare, text_of_bare otherBare] at same
    obtain ⟨roots, nullables⟩ := heading_inj same
    exact eq_of_numbers roots nullables (bare.trans otherBare.symm)
  · have words := congrArg String.toList same
    rw [toList_text_of_bracketed bare, toList_text_of_bracketed (bracketsAlike.1 bare)] at words
    obtain ⟨keywords, insides, endings⟩ := bracketed_inj left.root.isPlain_keyword
      (isFlat_numbersText _) left.isPlain_ending words
    -- Without the brackets, what is left of both texts is the name and the mark.
    have headingsAlike :
        left.root.name ++ mark left.nullable = right.root.name ++ mark right.nullable := by
      rw [← left.root.keyword_append_zone, ← right.root.keyword_append_zone, String.append_assoc,
        String.append_assoc, String.toList_inj.1 keywords, String.toList_inj.1 endings]
    obtain ⟨roots, nullables⟩ := heading_inj headingsAlike
    exact eq_of_numbers roots nullables (numbersText_injective (String.toList_inj.1 insides))

end LogicalType

/-! ## One text for one list of types -/

theorem TypeRoot.name_injective : Function.Injective name := by
  intro left right same
  exact (LogicalType.heading_inj (congrArg (· ++ LogicalType.mark true) same)).1

/-- Every text names what it is written for: a list of types, a signature, a single type. -/
theorem LogicalType.texts_inj :
    (∀ left right : List LogicalType, listText left = listText right ↔ left = right) ∧
      (∀ left right : Signature, left.text = right.text ↔ left = right) ∧
      ∀ left right : LogicalType, left.text = right.text ↔ left = right := by
  have listText_injective : Function.Injective listText :=
    intercalate_injective text_injective isItem_text
  have signatureText_injective : Function.Injective Signature.text :=
    intercalate_injective TypeRoot.name_injective fun root =>
      root.isPlain_name.isItem root.name_ne_nil
  exact ⟨fun _ _ => listText_injective.eq_iff, fun _ _ => signatureText_injective.eq_iff,
    fun _ _ => text_injective.eq_iff⟩

end OperatorDispatch
