import Mathlib.Data.List.TakeWhile
import OperatorDispatch.Toml.Document

/-!
# White space and comments

A document of nothing but white space and comments is read, and has no entries.
-/

namespace OperatorDispatch
namespace Toml

/-- The texts in front of which a line can end. -/
inductive AtLineEnd : List Char → Prop
  | nil : AtLineEnd []
  | lineFeed (rest : List Char) : AtLineEnd ('\n' :: rest)
  | carriageReturn (rest : List Char) : AtLineEnd ('\r' :: '\n' :: rest)

/-- The texts of white space and comments. -/
inductive Silent : List Char → Prop
  | nil : Silent []
  | blank {c : Char} {rest : List Char} : isBlank c → Silent rest → Silent (c :: rest)
  | lineFeed {rest : List Char} : Silent rest → Silent ('\n' :: rest)
  | carriageReturn {rest : List Char} : Silent rest → Silent ('\r' :: '\n' :: rest)
  | comment {text rest : List Char} : (∀ c ∈ text, ¬ isControl c) → AtLineEnd rest →
      Silent rest → Silent ('#' :: (text ++ rest))

/-- A text that is cut into tokens of white space and comments. -/
def CutsSilently (text : List Char) : Prop :=
  ∃ pieces, tokens text = some pieces ∧ ∀ piece ∈ pieces, (Group.token piece).isSpace

theorem cutsSilently_nil : CutsSilently [] :=
  ⟨[], by simp [tokens], by simp⟩

theorem cutsSilently_cons_iff {c : Char} {rest after : List Char} {piece : Token}
    (next : nextToken (c :: rest) = some (piece, after))
    (shorter : after.length < (c :: rest).length) (silent : (Group.token piece).isSpace) :
    CutsSilently (c :: rest) ↔ CutsSilently after := by
  simp only [CutsSilently, tokens, next, if_pos shorter, Option.map_eq_some_iff]
  constructor
  · rintro ⟨_, ⟨pieces, cut, rfl⟩, spaces⟩
    exact ⟨pieces, cut, fun piece member => spaces piece (List.mem_cons_of_mem _ member)⟩
  · rintro ⟨pieces, cut, spaces⟩
    exact ⟨piece :: pieces, ⟨pieces, cut, rfl⟩, by simpa using ⟨silent, spaces⟩⟩

theorem nextToken_of_isBlank {c : Char} (blank : isBlank c) (rest : List Char) :
    nextToken (c :: rest) =
      some (.blank (String.ofList (c :: rest.takeWhile isBlank)), rest.dropWhile isBlank) := by
  obtain rfl | rfl : c = ' ' ∨ c = '\t' := by simpa [isBlank] using blank
  all_goals rfl

/-- One token takes all the blanks that follow each other, so a text with a blank in front of it is
cut like the text after them. -/
theorem cutsSilently_dropWhile_isBlank (text : List Char) :
    CutsSilently (text.dropWhile isBlank) ↔ CutsSilently text := by
  cases text with
  | nil => rfl
  | cons c rest =>
      by_cases blank : isBlank c
      · have shorter : (rest.dropWhile isBlank).length < (c :: rest).length :=
          Nat.lt_succ_of_le (List.dropWhile_sublist _).length_le
        rw [List.dropWhile_cons_of_pos blank,
          cutsSilently_cons_iff (nextToken_of_isBlank blank rest) shorter rfl]
      · rw [List.dropWhile_cons_of_neg blank]

theorem afterComment_append {text rest : List Char} (plain : ∀ c ∈ text, ¬ isControl c)
    (ended : AtLineEnd rest) : afterComment (text ++ rest) = some rest := by
  induction text with
  | nil => cases ended <;> rfl
  | cons c text ih =>
      have later := ih fun d member => plain d (List.mem_cons_of_mem c member)
      have not_lineFeed : c ≠ '\n' := by rintro rfl; exact plain _ List.mem_cons_self rfl
      have not_carriageReturn : c ≠ '\r' := by rintro rfl; exact plain _ List.mem_cons_self rfl
      rw [List.cons_append, afterComment, if_neg (plain c List.mem_cons_self), later]
      · exact not_lineFeed
      · exact fun _ same _ => not_carriageReturn same

/-- White space and comments leave no other tokens. -/
theorem cutsSilently_of_silent {text : List Char} (silent : Silent text) : CutsSilently text := by
  induction silent with
  | nil => exact cutsSilently_nil
  | @blank c rest blank _ ih =>
      rw [← cutsSilently_dropWhile_isBlank, List.dropWhile_cons_of_pos blank,
        cutsSilently_dropWhile_isBlank]
      exact ih
  | lineFeed _ ih => exact (cutsSilently_cons_iff rfl (by simp) rfl).2 ih
  | @carriageReturn rest _ ih =>
      have shorter := length_lt_length_cons_append '\r' ['\n'] rest
      exact (cutsSilently_cons_iff rfl shorter rfl).2 ih
  | @comment text rest plain ended _ ih =>
      have next : nextToken ('#' :: (text ++ rest)) = some (.comment, rest) := by
        simp [nextToken, afterComment_append plain ended]
      have shorter := length_lt_length_cons_append '#' text rest
      exact (cutsSilently_cons_iff next shorter rfl).2 ih

/-! ### Groups and lines -/

theorem groupTokens_of_isSpace {pieces : List Token}
    (spaces : ∀ piece ∈ pieces, (Group.token piece).isSpace) (done : List Group) :
    groupTokens pieces [] done = some (done.reverse ++ pieces.map .token) := by
  induction pieces generalizing done with
  | nil => simp [groupTokens]
  | cons piece pieces ih =>
      have later := ih (fun other member => spaces other (List.mem_cons_of_mem _ member))
        (.token piece :: done)
      have space := spaces piece List.mem_cons_self
      cases piece <;> simp_all [Group.isSpace, groupTokens]

theorem Group.mem_of_mem_splitAt {kind : Group → Bool} {groups part : List Group} {group : Group}
    (part_mem : part ∈ splitAt kind groups) (member : group ∈ part) :
    group ∈ groups ∧ ¬ kind group := by
  induction groups generalizing part with
  | nil => simp_all [splitAt]
  | cons first rest ih =>
      have old {part : List Group} (part_mem : part ∈ splitAt kind rest) (member : group ∈ part) :
          group ∈ first :: rest ∧ ¬ kind group :=
        ⟨List.mem_cons_of_mem _ (ih part_mem member).1, (ih part_mem member).2⟩
      by_cases splits : kind first
      · rw [splitAt, if_pos splits] at part_mem
        rcases List.mem_cons.1 part_mem with rfl | later
        · simp at member
        · exact old later member
      · rw [splitAt, if_neg splits] at part_mem
        have first_ok : first ∈ first :: rest ∧ ¬ kind first := ⟨List.mem_cons_self, splits⟩
        split at part_mem
        · obtain rfl := List.mem_singleton.1 part_mem
          rwa [List.mem_singleton.1 member]
        · rename_i head tail parts
          rcases List.mem_cons.1 part_mem with rfl | later
          · rcases List.mem_cons.1 member with rfl | inside
            · exact first_ok
            · exact old (by rw [parts]; exact List.mem_cons_self) inside
          · exact old (by rw [parts]; exact List.mem_cons_of_mem _ later) member

theorem Group.trim_eq_nil {kind : Group → Bool} {groups : List Group}
    (all : ∀ group ∈ groups, kind group) : trim kind groups = [] := by
  have dropped : groups.dropWhile kind = [] := List.dropWhile_eq_nil_iff.2 all
  simp [trim, dropped]

theorem statement?_of_isSpace {line : List Group} (spaces : ∀ group ∈ line, group.isSpace)
    (no_end : ∀ group ∈ line, ¬ group.isToken .newline) : statement? line = some none := by
  have empty : ∀ group ∈ line, group.isBlank || group.isToken .comment := by
    intro group member
    have space := spaces group member
    have not_newline := no_end group member
    cases group with
    | token piece => cases piece <;> simp_all [Group.isSpace, Group.isBlank, Group.isToken]
    | square | brace => simp [Group.isSpace] at space
  simp [statement?, Group.trim_eq_nil empty]

theorem mapM_statement?_of_eq_none {lines : List (List Group)}
    (quiet : ∀ line ∈ lines, statement? line = some none) :
    lines.mapM statement? = some (lines.map fun _ => none) := by
  induction lines with
  | nil => rfl
  | cons line lines ih =>
      have later := ih fun other member => quiet other (List.mem_cons_of_mem _ member)
      rw [List.mapM_cons, quiet line List.mem_cons_self, later]
      rfl

theorem statements?_of_cutsSilently {text : List Char} (cuts : CutsSilently text)
    (no_mark : text.head? ≠ some '\ufeff') : statements? (String.ofList text) = some [] := by
  obtain ⟨pieces, cut, spaces⟩ := cuts
  have groups := groupTokens_of_isSpace spaces []
  let lines := Group.splitAt (Group.isToken .newline) (pieces.map Group.token)
  have quiet : ∀ line ∈ lines, statement? line = some none := by
    intro line line_mem
    refine statement?_of_isSpace (fun group member => ?_)
      fun group member => (Group.mem_of_mem_splitAt line_mem member).2
    obtain ⟨piece, piece_mem, rfl⟩ :=
      List.mem_map.1 (Group.mem_of_mem_splitAt line_mem member).1
    exact spaces piece piece_mem
  simp only [statements?, String.toList_ofList]
  split
  · simp at no_mark
  · rw [cut, Option.bind_eq_bind, Option.bind_some, groups, Option.bind_eq_bind, Option.bind_some,
      List.reverse_nil, List.nil_append, mapM_statement?_of_eq_none quiet]
    simp

theorem Silent.head?_ne {text : List Char} (silent : Silent text) :
    text.head? ≠ some '\ufeff' := by
  cases silent <;> simp
  rintro rfl
  contradiction

/-- A document of white space and comments has no entries. -/
theorem parse?_of_silent {text : List Char} (silent : Silent text) :
    parse? (String.ofList text) = some [] := by
  have statements := statements?_of_cutsSilently (cutsSilently_of_silent silent) silent.head?_ne
  simp [parse?, statements, splitSection, Entries.assignAll, addSections]

end Toml
end OperatorDispatch
