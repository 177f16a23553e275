import OperatorDispatch.Toml.Statement

/-!
# The contents of a TOML document

The statements of a document fill one table of nested tables.  No key is set twice.  A table that
was opened by a header, or written as a value, cannot be opened again; a table that exists only
because another one lies within it can be opened once.  Dotted keys lead through tables without a
header and through the last elements of arrays, and no header opens a table that they have entered.
-/

namespace OperatorDispatch
namespace Toml

/-- How a table came into being. -/
inductive Origin where
  /-- By a header of its own, or as the document itself. -/
  | header
  /-- By the header of a table within it. -/
  | parent
  /-- By a dotted key, or by the header of a table within it before a dotted key entered it. -/
  | dotted
  /-- As a value. -/
  | inline
  deriving DecidableEq, Repr

/-- A value of a document. -/
inductive Node where
  | string (text : String)
  /-- A number, a truth value, a date or a time. -/
  | scalar
  | array (items : List Node)
  /-- The tables of an array that is filled by headers, each with its entries. -/
  | tables (earlier : List (List (String × Node))) (latest : List (String × Node))
  | table (origin : Origin) (entries : List (String × Node))

/-- The entries of a table, in the order of their first mention. -/
abbrev Entries := List (String × Node)

namespace Entries

/-- Sets the value of a key. -/
def set (entries : Entries) (key : String) (node : Node) : Entries :=
  if entries.any (·.1 = key) then
    entries.map fun entry => if entry.1 = key then (key, node) else entry
  else
    entries ++ [(key, node)]

/-- The origin of a table after a path has led through it, if one may.  A dotted key enters no table
with a header. -/
def entered? (byDottedKey : Bool) : Origin → Option Origin
  | .inline => none
  | .header => if byDottedKey then none else some .header
  | .parent => some (if byDottedKey then .dotted else .parent)
  | .dotted => some .dotted

/-- Changes the table at the end of a path, opening the tables on the way that do not exist. -/
def change (byDottedKey : Bool) (final : Origin → Entries → Option Entries) :
    (path : List String) → Origin → Entries → Option Entries
  | [], origin, entries => final origin entries
  | key :: path, _, entries =>
      match entries.lookup key with
      | none => do
          let origin := if byDottedKey then Origin.dotted else .parent
          return set entries key (.table origin (← change byDottedKey final path origin []))
      | some (.table origin inner) => do
          let origin ← entered? byDottedKey origin
          return set entries key (.table origin (← change byDottedKey final path origin inner))
      | some (.tables earlier latest) => do
          return set entries key (.tables earlier (← change byDottedKey final path .header latest))
      | some _ => none

/-- Adds an entry with a new key. -/
def addNew (entries : Entries) (key : String) (node : Node) : Option Entries :=
  if entries.any (·.1 = key) then none else some (entries ++ [(key, node)])

/-- Sets the value at a path, which is the key of an assignment. -/
def assign (entries : Entries) (path : List String) (node : Node) : Option Entries :=
  match path.getLast? with
  | none => none
  | some key =>
      let parents := path.dropLast
      let final := fun origin inner =>
        if parents.isEmpty ∨ origin = .dotted then addNew inner key node else none
      change true final parents .header entries

end Entries

/-- The node of a written value. -/
def Node.ofValue? : Value → Option Node
  | .string text => some (.string text)
  | .scalar => some .scalar
  | .array items => do
      let nodes ← items.attach.mapM fun ⟨item, _⟩ => Node.ofValue? item
      return .array nodes
  | .inline assignments => do
      let entries ← assignments.attach.foldlM
        (fun entries ⟨(path, value), _⟩ => do
          Entries.assign entries path (← Node.ofValue? value))
        []
      return .table .inline entries
termination_by value => sizeOf value
decreasing_by
  · have := List.sizeOf_lt_of_mem ‹_›
    simp; omega
  · rename_i member
    have := List.sizeOf_lt_of_mem member
    simp at this ⊢; omega

namespace Entries

/-- Adds the assignments under one header. -/
def assignAll (entries : Entries) (assignments : List (List String × Value)) : Option Entries :=
  assignments.foldlM
    (fun entries (path, value) => do assign entries path (← Node.ofValue? value))
    entries

/-- Adds what stands under the header of a table. -/
def openTable (entries : Entries) (path : List String)
    (assignments : List (List String × Value)) : Option Entries :=
  match path.getLast? with
  | none => none
  | some key =>
      let final := fun _ inner =>
        match inner.lookup key with
        | none => do return set inner key (.table .header (← assignAll [] assignments))
        | some (.table .parent present) => do
            return set inner key (.table .header (← assignAll present assignments))
        | some _ => none
      change false final path.dropLast .header entries

/-- Adds what stands under the header of an element in an array of tables. -/
def openElement (entries : Entries) (path : List String)
    (assignments : List (List String × Value)) : Option Entries :=
  match path.getLast? with
  | none => none
  | some key =>
      let final := fun _ inner => do
        let element ← assignAll [] assignments
        match inner.lookup key with
        | none => some (set inner key (.tables [] element))
        | some (.tables earlier latest) =>
            some (set inner key (.tables (earlier ++ [latest]) element))
        | some _ => none
      change false final path.dropLast .header entries

end Entries

/-- The assignments before the next header, and the statements from it on. -/
def splitSection : List Statement → List (List String × Value) × List Statement
  | .assign path value :: rest =>
      let (assignments, rest) := splitSection rest
      ((path, value) :: assignments, rest)
  | statements => ([], statements)

theorem length_splitSection_le (statements : List Statement) :
    (splitSection statements).2.length ≤ statements.length := by
  fun_induction splitSection statements <;> simp_all
  omega

/-- Adds the sections of a document, each of them a header with its assignments. -/
def addSections (entries : Entries) : List Statement → Option Entries
  | [] => some entries
  | .table path :: rest => do
      addSections (← entries.openTable path (splitSection rest).1) (splitSection rest).2
  | .element path :: rest => do
      addSections (← entries.openElement path (splitSection rest).1) (splitSection rest).2
  | .assign _ _ :: _ => none
termination_by statements => statements.length
decreasing_by all_goals have := length_splitSection_le rest; simp; omega

/-- The entries of a document, or nothing if it is not well formed. -/
def parse? (document : String) : Option Entries := do
  let statements ← statements? document
  let (assignments, rest) := splitSection statements
  addSections (← Entries.assignAll [] assignments) rest

end Toml
end OperatorDispatch
