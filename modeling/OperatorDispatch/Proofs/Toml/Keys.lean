import OperatorDispatch.Toml.Document

/-!
# Keys of a document

In a document that is read, no table has a key twice, however deep it lies.  A key is set anew only
where the table that it named is opened again or its contents have grown.
-/

namespace OperatorDispatch
namespace Toml

/-- A value none of whose tables has a key twice. -/
inductive Node.Distinct : Node → Prop
  | string (text : String) : Distinct (.string text)
  | scalar : Distinct .scalar
  | array {items : List Node} (items_distinct : ∀ item ∈ items, Distinct item) :
      Distinct (.array items)
  | tables {earlier : List Entries} {latest : Entries}
      (keys_nodup : ∀ entries ∈ latest :: earlier, (entries.map Prod.fst).Nodup)
      (nodes_distinct : ∀ entries ∈ latest :: earlier, ∀ entry ∈ entries, Distinct entry.2) :
      Distinct (.tables earlier latest)
  | table {origin : Origin} {entries : Entries} (keys_nodup : (entries.map Prod.fst).Nodup)
      (nodes_distinct : ∀ entry ∈ entries, Distinct entry.2) : Distinct (.table origin entries)

namespace Entries

variable {entries result : Entries} {key : String} {node : Node}

/-- Entries with keys of their own, and the same in every table among them. -/
structure Distinct (entries : Entries) : Prop where
  keys_nodup : (entries.map Prod.fst).Nodup
  nodes_distinct : ∀ entry ∈ entries, entry.2.Distinct

theorem distinct_nil : Distinct [] :=
  ⟨List.nodup_nil, by simp⟩

theorem distinct_table_iff {origin : Origin} :
    (Node.table origin entries).Distinct ↔ entries.Distinct :=
  ⟨fun | .table keys nodes => ⟨keys, nodes⟩, fun ⟨keys, nodes⟩ => .table keys nodes⟩

theorem distinct_tables_iff {earlier : List Entries} {latest : Entries} :
    (Node.tables earlier latest).Distinct ↔
      latest.Distinct ∧ ∀ entries ∈ earlier, entries.Distinct := by
  rw [← List.forall_mem_cons]
  constructor
  · intro distinct
    cases distinct with
    | tables keys nodes => exact fun entries member => ⟨keys entries member, nodes entries member⟩
  · exact fun distinct => .tables (fun entries member => (distinct entries member).keys_nodup)
      fun entries member => (distinct entries member).nodes_distinct

theorem Distinct.of_lookup (distinct : entries.Distinct) (found : entries.lookup key = some node) :
    node.Distinct := by
  obtain ⟨front, back, rfl, -⟩ := List.lookup_eq_some_iff.1 found
  exact distinct.nodes_distinct (key, node) (by simp)

/-! ### Setting a key -/

theorem keys_set_of_mem (present : entries.any (·.1 = key)) :
    (set entries key node).map Prod.fst = entries.map Prod.fst := by
  rw [set, if_pos present, List.map_map]
  refine List.map_congr_left fun entry _ => ?_
  by_cases same : entry.1 = key <;> simp [same]

theorem Distinct.append_new (distinct : entries.Distinct) (new : ¬ entries.any (·.1 = key))
    (node_distinct : node.Distinct) : Distinct (entries ++ [(key, node)]) where
  keys_nodup := by
    rw [List.map_append, List.nodup_append]
    refine ⟨distinct.keys_nodup, by simp, ?_⟩
    intro other member last last_mem same
    obtain ⟨entry, entry_mem, rfl⟩ := List.mem_map.1 member
    obtain rfl : last = key := by simpa using last_mem
    exact new (List.any_eq_true.2 ⟨entry, entry_mem, by simpa using same⟩)
  nodes_distinct :=
    List.forall_mem_append.2 ⟨distinct.nodes_distinct, by simpa using node_distinct⟩

theorem Distinct.set (distinct : entries.Distinct) (node_distinct : node.Distinct) :
    (set entries key node).Distinct := by
  by_cases present : entries.any (·.1 = key)
  · refine ⟨by rw [keys_set_of_mem present]; exact distinct.keys_nodup, ?_⟩
    rw [Entries.set, if_pos present]
    intro entry member
    obtain ⟨old, old_mem, rfl⟩ := List.mem_map.1 member
    split
    · exact node_distinct
    · exact distinct.nodes_distinct old old_mem
  · rw [Entries.set, if_neg present]
    exact distinct.append_new present node_distinct

theorem Distinct.addNew (distinct : entries.Distinct) (node_distinct : node.Distinct)
    (added : addNew entries key node = some result) : result.Distinct := by
  rw [Entries.addNew, Option.ite_none_left_eq_some, Option.some.injEq] at added
  obtain ⟨new, rfl⟩ := added
  exact distinct.append_new new node_distinct

/-! ### Along a path -/

/-- A change of one table that keeps the keys in its tables distinct. -/
def KeepsDistinct (final : Origin → Entries → Option Entries) : Prop :=
  ∀ origin entries result, final origin entries = some result → entries.Distinct → result.Distinct

theorem keepsDistinct_change {byDottedKey : Bool} {final : Origin → Entries → Option Entries}
    (kept : KeepsDistinct final) (path : List String) :
    KeepsDistinct (change byDottedKey final path) := by
  induction path with
  | nil => exact kept
  | cons key path ih =>
      intro origin entries result changed distinct
      rw [change] at changed
      split at changed <;>
        simp only [Option.bind_eq_bind, Option.pure_def, Option.bind_eq_some_iff,
          Option.some.injEq, reduceCtorEq] at changed
      case h_1 =>
        obtain ⟨inner, inner_eq, rfl⟩ := changed
        exact distinct.set (distinct_table_iff.2 (ih _ _ _ inner_eq distinct_nil))
      case h_2 found =>
        obtain ⟨entered, -, inner, inner_eq, rfl⟩ := changed
        have old := distinct_table_iff.1 (distinct.of_lookup found)
        exact distinct.set (distinct_table_iff.2 (ih _ _ _ inner_eq old))
      case h_3 earlier latest found =>
        obtain ⟨inner, inner_eq, rfl⟩ := changed
        obtain ⟨latest_distinct, earlier_distinct⟩ :=
          distinct_tables_iff.1 (distinct.of_lookup found)
        exact distinct.set
          (distinct_tables_iff.2 ⟨ih _ _ _ inner_eq latest_distinct, earlier_distinct⟩)

theorem Distinct.assign {path : List String} (distinct : entries.Distinct)
    (node_distinct : node.Distinct) (assigned : assign entries path node = some result) :
    result.Distinct := by
  rw [Entries.assign] at assigned
  split at assigned
  · cases assigned
  · refine keepsDistinct_change (fun origin inner changed added inner_distinct => ?_) _ _ _ _
      assigned distinct
    obtain ⟨-, added⟩ := Option.ite_none_right_eq_some.1 added
    exact inner_distinct.addNew node_distinct added

/-! ### Whole documents -/

/-- It is enough that the values that are assigned have distinct keys themselves. -/
theorem Distinct.assignAll_of {assignments : List (List String × Value)}
    (values : ∀ path value, (path, value) ∈ assignments →
      ∀ node, Node.ofValue? value = some node → node.Distinct)
    (distinct : entries.Distinct) (assigned : assignAll entries assignments = some result) :
    result.Distinct := by
  induction assignments generalizing entries with
  | nil =>
      obtain rfl : entries = result := by simpa [assignAll] using assigned
      exact distinct
  | cons assignment assignments ih =>
      simp only [assignAll, List.foldlM_cons, Option.bind_eq_bind,
        Option.bind_eq_some_iff] at assigned
      obtain ⟨next, ⟨node, node_eq, next_eq⟩, assigned⟩ := assigned
      have node_distinct := values assignment.1 assignment.2 (by simp) node node_eq
      refine ih (fun path value member => values path value ?_)
        (distinct.assign node_distinct next_eq) assigned
      exact List.mem_cons_of_mem _ member

end Entries

theorem Node.ofValue?_array (items : List Value) :
    ofValue? (.array items) = (items.mapM ofValue?).map array := by
  rw [ofValue?, List.mapM_subtype fun _ _ => rfl, List.unattach_attach]
  exact (Option.map_eq_bind ..).symm

theorem Node.ofValue?_inline (assignments : List (List String × Value)) :
    ofValue? (.inline assignments) = (Entries.assignAll [] assignments).map (table .inline) := by
  rw [ofValue?, List.foldlM_subtype fun _ _ _ => rfl, List.unattach_attach]
  exact (Option.map_eq_bind ..).symm

theorem exists_of_mem_mapM {α β : Type} {f : α → Option β} {elements : List α}
    {answers : List β} (mapped : elements.mapM f = some answers) {answer : β}
    (member : answer ∈ answers) : ∃ element ∈ elements, f element = some answer := by
  induction elements generalizing answers with
  | nil => simp_all
  | cons element elements ih =>
      simp only [List.mapM_cons, Option.bind_eq_bind, Option.pure_def, Option.bind_eq_some_iff,
        Option.some.injEq] at mapped
      obtain ⟨head, head_eq, tail, tail_eq, rfl⟩ := mapped
      rcases List.mem_cons.1 member with rfl | later
      · exact ⟨element, List.mem_cons_self, head_eq⟩
      · obtain ⟨other, other_mem, other_eq⟩ := ih tail_eq later
        exact ⟨other, List.mem_cons_of_mem _ other_mem, other_eq⟩

theorem Node.distinct_ofValue? (value : Value) :
    ∀ node, ofValue? value = some node → node.Distinct := by
  induction value using ofValue?.induct with
  | case1 text => simpa [ofValue?] using Distinct.string text
  | case2 => simpa [ofValue?] using Distinct.scalar
  | case3 items ih =>
      intro node written
      rw [ofValue?_array, Option.map_eq_some_iff] at written
      obtain ⟨nodes, nodes_eq, rfl⟩ := written
      refine .array fun node member => ?_
      obtain ⟨item, item_mem, item_eq⟩ := exists_of_mem_mapM nodes_eq member
      exact ih item item_mem node item_eq
  | case4 assignments ih =>
      intro node written
      rw [ofValue?_inline, Option.map_eq_some_iff] at written
      obtain ⟨entries, entries_eq, rfl⟩ := written
      exact Entries.distinct_table_iff.2 (Entries.distinct_nil.assignAll_of ih entries_eq)

namespace Entries

variable {entries result : Entries}

theorem Distinct.assignAll {assignments : List (List String × Value)}
    (distinct : entries.Distinct) (assigned : assignAll entries assignments = some result) :
    result.Distinct :=
  distinct.assignAll_of (fun _ value _ => Node.distinct_ofValue? value) assigned

theorem Distinct.openTable {path : List String} {assignments : List (List String × Value)}
    (distinct : entries.Distinct) (opened : openTable entries path assignments = some result) :
    result.Distinct := by
  rw [Entries.openTable] at opened
  split at opened
  · cases opened
  · refine keepsDistinct_change (fun origin inner changed filled inner_distinct => ?_) _ _ _ _
      opened distinct
    split at filled <;>
      simp only [Option.bind_eq_bind, Option.pure_def, Option.bind_eq_some_iff,
        Option.some.injEq, reduceCtorEq] at filled
    case h_1 =>
      obtain ⟨table, table_eq, rfl⟩ := filled
      exact inner_distinct.set (distinct_table_iff.2 (distinct_nil.assignAll table_eq))
    case h_2 found =>
      obtain ⟨table, table_eq, rfl⟩ := filled
      have present := distinct_table_iff.1 (inner_distinct.of_lookup found)
      exact inner_distinct.set (distinct_table_iff.2 (present.assignAll table_eq))

theorem Distinct.openElement {path : List String} {assignments : List (List String × Value)}
    (distinct : entries.Distinct) (opened : openElement entries path assignments = some result) :
    result.Distinct := by
  rw [Entries.openElement] at opened
  split at opened
  · cases opened
  · refine keepsDistinct_change (fun origin inner changed filled inner_distinct => ?_) _ _ _ _
      opened distinct
    simp only [Option.bind_eq_bind, Option.bind_eq_some_iff] at filled
    obtain ⟨element, element_eq, filled⟩ := filled
    have element_distinct := distinct_nil.assignAll element_eq
    split at filled <;> cases filled
    case h_1 =>
      exact inner_distinct.set (distinct_tables_iff.2 ⟨element_distinct, by simp⟩)
    case h_2 found =>
      obtain ⟨latest_distinct, earlier_distinct⟩ :=
        distinct_tables_iff.1 (inner_distinct.of_lookup found)
      refine inner_distinct.set (distinct_tables_iff.2 ⟨element_distinct, ?_⟩)
      exact List.forall_mem_append.2 ⟨earlier_distinct, by simpa using latest_distinct⟩

end Entries

theorem distinct_addSections {entries result : Entries} {statements : List Statement}
    (distinct : entries.Distinct) (added : addSections entries statements = some result) :
    result.Distinct := by
  induction entries, statements using addSections.induct with
  | case1 entries =>
      obtain rfl : entries = result := by simpa [addSections] using added
      exact distinct
  | case2 entries path rest ih =>
      rw [addSections, Option.bind_eq_bind, Option.bind_eq_some_iff] at added
      obtain ⟨next, opened, added⟩ := added
      exact ih next (distinct.openTable opened) added
  | case3 entries path rest ih =>
      rw [addSections, Option.bind_eq_bind, Option.bind_eq_some_iff] at added
      obtain ⟨next, opened, added⟩ := added
      exact ih next (distinct.openElement opened) added
  | case4 => simp [addSections] at added

/-- No table of a document has a key twice. -/
theorem distinct_parse? {document : String} {entries : Entries}
    (parsed : parse? document = some entries) : entries.Distinct := by
  simp only [parse?, Option.bind_eq_bind, Option.bind_eq_some_iff] at parsed
  obtain ⟨statements, -, first, first_eq, added⟩ := parsed
  exact distinct_addSections (Entries.distinct_nil.assignAll first_eq) added

end Toml
end OperatorDispatch
