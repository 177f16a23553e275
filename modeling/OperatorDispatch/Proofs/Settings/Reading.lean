import OperatorDispatch.Settings.File
import OperatorDispatch.Proofs.Toml.Keys
import OperatorDispatch.Proofs.Toml.Silence

/-!
# What settings are read from a document

The settings of a table are the choices that its entries name, and the defaults where it has no
entry; the order of the entries does not matter.  From a file, settings are read in the text that
the file system returns for its path.
-/

namespace OperatorDispatch

theorem ExecutionMode.ofName?_eq_some_iff {text : String} {mode : ExecutionMode} :
    ofName? text = some mode ↔ mode.name = text := by
  constructor
  · intro found
    simpa using List.find?_some found
  · rintro rfl
    cases mode <;> rfl

theorem DuplicatePolicy.ofName?_eq_some_iff {text : String} {policy : DuplicatePolicy} :
    ofName? text = some policy ↔ policy.name = text := by
  constructor
  · intro found
    simpa using List.find?_some found
  · rintro rfl
    cases policy <;> rfl

namespace Settings

open Toml

variable {entries : Entries} {key : String} {settings : Settings}

/-! ### Tables of settings -/

section Chooses

variable {Choice : Type} {read : Node → Option Choice} {default choice : Choice} {node : Node}

/-- The choice for a key is the one that its entry names, and a default if it has no entry. -/
structure Chooses (entries : Entries) (key : String) (read : Node → Option Choice)
    (default choice : Choice) : Prop where
  named : ∀ node, (key, node) ∈ entries → read node = some choice
  otherwise : key ∉ entries.map Prod.fst → choice = default

theorem chooses_iff_of_notMem (fresh : key ∉ entries.map Prod.fst) :
    Chooses entries key read default choice ↔ choice = default := by
  refine ⟨fun chosen => chosen.otherwise fresh, fun same => ⟨fun node member => ?_, fun _ => same⟩⟩
  exact absurd (List.mem_map_of_mem member) fresh

theorem chooses_cons_self_iff (fresh : key ∉ entries.map Prod.fst) :
    Chooses ((key, node) :: entries) key read default choice ↔ read node = some choice := by
  refine ⟨fun chosen => chosen.named node List.mem_cons_self, fun named => ⟨?_, by simp⟩⟩
  intro other member
  rcases List.mem_cons.1 member with same | later
  · cases same
    exact named
  · exact absurd (List.mem_map_of_mem later) fresh

theorem chooses_cons_iff_of_ne {other : String} (different : key ≠ other) :
    Chooses ((other, node) :: entries) key read default choice ↔
      Chooses entries key read default choice := by
  constructor
  · rintro ⟨named, otherwise⟩
    refine ⟨fun node member => named node (List.mem_cons_of_mem _ member), fun fresh => ?_⟩
    exact otherwise (by simpa [different] using fresh)
  · rintro ⟨named, otherwise⟩
    refine ⟨fun node member => named node (by simpa [different] using member), fun fresh => ?_⟩
    exact otherwise fun member => fresh (List.mem_cons_of_mem _ member)

end Chooses

/-- The settings that entries describe where they do not leave them as they are in `start`. -/
structure Describes (start : Settings) (entries : Entries) (settings : Settings) : Prop where
  keys : ∀ entry ∈ entries, entry.1 = "execution-mode" ∨ entry.1 = "duplicate-keys"
  mode : Chooses entries "execution-mode" mode? start.mode settings.mode
  duplicates : Chooses entries "duplicate-keys" duplicates? start.duplicates settings.duplicates

theorem describes_nil_iff {start : Settings} : Describes start [] settings ↔ settings = start := by
  constructor
  · rintro ⟨-, mode, duplicates⟩
    have same_mode := mode.otherwise (by simp)
    have same_duplicates := duplicates.otherwise (by simp)
    cases settings
    simp_all
  · rintro rfl
    exact ⟨by simp, ⟨by simp, fun _ => rfl⟩, ⟨by simp, fun _ => rfl⟩⟩

/-- As the only entry with its key, the first one says the last word about its setting. -/
theorem describes_cons_iff {node : Node} (fresh : key ∉ entries.map Prod.fst) {start : Settings} :
    Describes start ((key, node) :: entries) settings ↔
      ∃ next, withEntry? start (key, node) = some next ∧ Describes next entries settings := by
  constructor
  · rintro ⟨keys, mode, duplicates⟩
    have later_keys := fun entry member => keys entry (List.mem_cons_of_mem _ member)
    rcases keys (key, node) List.mem_cons_self with rfl | rfl
    · have named := (chooses_cons_self_iff fresh).1 mode
      exact ⟨{ start with mode := settings.mode }, by simp [named, withEntry?], later_keys,
        (chooses_iff_of_notMem fresh).2 rfl, (chooses_cons_iff_of_ne (by decide)).1 duplicates⟩
    · have named := (chooses_cons_self_iff fresh).1 duplicates
      exact ⟨{ start with duplicates := settings.duplicates }, by simp [named, withEntry?],
        later_keys, (chooses_cons_iff_of_ne (by decide)).1 mode,
        (chooses_iff_of_notMem fresh).2 rfl⟩
  · rintro ⟨next, step, keys, mode, duplicates⟩
    have all_keys (known : key = "execution-mode" ∨ key = "duplicate-keys") :
        ∀ entry ∈ (key, node) :: entries,
          entry.1 = "execution-mode" ∨ entry.1 = "duplicate-keys" :=
      fun _ member => (List.mem_cons.1 member).elim (fun same => same ▸ known) (keys _)
    unfold withEntry? at step
    split at step
    case h_1 equal =>
      cases equal
      obtain ⟨chosen, named, rfl⟩ := Option.map_eq_some_iff.1 step
      obtain rfl := (chooses_iff_of_notMem fresh).1 mode
      exact ⟨all_keys (.inl rfl), (chooses_cons_self_iff fresh).2 named,
        (chooses_cons_iff_of_ne (by decide)).2 duplicates⟩
    case h_2 equal =>
      cases equal
      obtain ⟨chosen, named, rfl⟩ := Option.map_eq_some_iff.1 step
      obtain rfl := (chooses_iff_of_notMem fresh).1 duplicates
      exact ⟨all_keys (.inr rfl), (chooses_cons_iff_of_ne (by decide)).2 mode,
        (chooses_cons_self_iff fresh).2 named⟩
    case h_3 => cases step

theorem foldlM_withEntry?_eq_some_iff (nodup : (entries.map Prod.fst).Nodup) (start : Settings) :
    entries.foldlM withEntry? start = some settings ↔ Describes start entries settings := by
  induction entries generalizing start with
  | nil => simp [describes_nil_iff, eq_comm]
  | cons entry entries ih =>
      obtain ⟨fresh, nodup⟩ := List.nodup_cons.1 nodup
      rw [List.foldlM_cons, Option.bind_eq_bind, Option.bind_eq_some_iff, describes_cons_iff fresh]
      simp only [ih nodup]

/-- Settings can be written by the names of their choices. -/
theorem describes_names (start settings : Settings) :
    Describes start
      [("execution-mode", .string settings.mode.name),
        ("duplicate-keys", .string settings.duplicates.name)] settings := by
  have mode : mode? (.string settings.mode.name) = some settings.mode :=
    ExecutionMode.ofName?_eq_some_iff.2 rfl
  have duplicates : duplicates? (.string settings.duplicates.name) = some settings.duplicates :=
    DuplicatePolicy.ofName?_eq_some_iff.2 rfl
  refine (foldlM_withEntry?_eq_some_iff (by simp) start).1 ?_
  simp [mode, duplicates, withEntry?]

/-! ### Documents and files -/

/-- The settings that the entries of a document describe. -/
inductive Holds : Entries → Settings → Prop
  | nothing : Holds [] {}
  | table {origin : Origin} {entries : Entries} {settings : Settings} :
      Describes {} entries settings → Holds [("registry", .table origin entries)] settings
  | array {items : List Node} {settings : Settings} :
      ofItems? items = some settings → Holds [("registry", .array items)] settings
  | tables {earlier : List Entries} {latest : Entries} {settings : Settings} :
      ofItems? ((earlier ++ [latest]).map (.table .header)) = some settings →
        Holds [("registry", .tables earlier latest)] settings

theorem ofNode?_eq_some_iff {node : Node} (distinct : node.Distinct) :
    ofNode? node = some settings ↔ Holds [("registry", node)] settings := by
  cases node with
  | string | scalar => exact ⟨nofun, nofun⟩
  | array => exact ⟨.array, fun | .array holds => holds⟩
  | tables => exact ⟨.tables, fun | .tables holds => holds⟩
  | table origin entries =>
      rw [ofNode?, foldlM_withEntry?_eq_some_iff (Entries.distinct_table_iff.1 distinct).keys_nodup]
      exact ⟨.table, fun | .table describes => describes⟩

/-- No hypothesis on the keys is left: a document that is read has each of them once. -/
theorem ofDocument?_eq_some_iff {document : String} :
    ofDocument? document = some settings ↔
      ∃ entries, parse? document = some entries ∧ Holds entries settings := by
  rw [ofDocument?, Option.bind_eq_bind, Option.bind_eq_some_iff]
  refine exists_congr fun entries => and_congr_right fun parsed => ?_
  have distinct := distinct_parse? parsed
  split
  case h_1 =>
    rw [Option.some.injEq]
    exact ⟨fun | rfl => .nothing, fun | .nothing => rfl⟩
  case h_2 node => exact ofNode?_eq_some_iff (distinct.nodes_distinct _ List.mem_cons_self)
  case h_3 not_empty not_registry =>
    refine ⟨nofun, fun holds => ?_⟩
    cases holds with
    | nothing => exact absurd rfl not_empty
    | table | array | tables => exact absurd rfl (not_registry _)

/-- A document of white space and comments leaves every setting at its default. -/
theorem ofDocument_of_silent {text : List Char} (silent : Silent text) :
    ofDocument (String.ofList text) = .ok {} := by
  have holds := ofDocument?_eq_some_iff.2 ⟨[], parse?_of_silent silent, .nothing⟩
  rw [ofDocument, holds]

theorem load_eq_ok_iff {system : FileSystem} {path : String} :
    load system path = .ok settings ↔
      ∃ document, system.readText path = .ok document ∧ ofDocument? document = some settings := by
  cases read : system.readText path with
  | error cause => simp [load, read]
  | ok document =>
      cases described : ofDocument? document <;> simp [load, read, ofDocument, described]

/-- Loading fails in two ways, and its error tells which of them it was. -/
theorem load_eq_error_iff {system : FileSystem} {path : String} {error : SettingsError} :
    load system path = .error error ↔
      (∃ cause, system.readText path = .error cause ∧ error = .unreadable path cause) ∨
      (∃ document, system.readText path = .ok document ∧ ofDocument? document = none ∧
        error = .malformed) := by
  cases read : system.readText path with
  | error cause => simp [load, read, eq_comm]
  | ok document =>
      cases described : ofDocument? document <;> simp [load, read, ofDocument, described, eq_comm]

end Settings
end OperatorDispatch
