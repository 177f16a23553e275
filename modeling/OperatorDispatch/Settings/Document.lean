import OperatorDispatch.Settings.Basic
import OperatorDispatch.Settings.Error
import OperatorDispatch.Toml.Document

/-!
# Documents of settings

Settings are written in a TOML document, in its table `registry`:

    [registry]
    execution-mode = "batch"
    duplicate-keys = "overwrite"

Each key may be missing, and no other key may be present.  A choice is named by a string, or by a
table with the name as its only key and nothing as its value.  The table may also be an array with
the choices in this order.
-/

namespace OperatorDispatch
namespace Settings

open Toml

/-- The name of a choice without further contents. -/
def choiceName? : Node → Option String
  | .string text => some text
  | .table _ [(name, .table _ [])] => some name
  | .table _ [(name, .array [])] => some name
  | _ => none

/-- The execution mode that a value names. -/
def mode? (node : Node) : Option ExecutionMode :=
  (choiceName? node).bind ExecutionMode.ofName?

/-- The treatment of repeated registrations that a value names. -/
def duplicates? (node : Node) : Option DuplicatePolicy :=
  (choiceName? node).bind DuplicatePolicy.ofName?

/-- Takes one entry of the table of settings into account. -/
def withEntry? (settings : Settings) : String × Node → Option Settings
  | ("execution-mode", node) => (mode? node).map fun mode => { settings with mode }
  | ("duplicate-keys", node) =>
      (duplicates? node).map fun duplicates => { settings with duplicates }
  | _ => none

/-- The settings whose values are listed in order.  Values after the last setting are ignored. -/
def ofItems? : List Node → Option Settings
  | [] => some {}
  | [mode] => do return { mode := ← mode? mode }
  | mode :: duplicates :: _ => do
      return { mode := ← mode? mode, duplicates := ← duplicates? duplicates }

/-- The settings that a value describes. -/
def ofNode? : Node → Option Settings
  | .table _ entries => entries.foldlM withEntry? {}
  | .array items => ofItems? items
  | .tables earlier latest => ofItems? ((earlier ++ [latest]).map (.table .header))
  | _ => none

/-- The settings of a document. -/
def ofDocument? (document : String) : Option Settings := do
  match ← Toml.parse? document with
  | [] => some {}
  | [("registry", node)] => ofNode? node
  | _ => none

/-- The settings of a document, or the error that it is none. -/
def ofDocument (document : String) : Except SettingsError Settings :=
  match ofDocument? document with
  | some settings => .ok settings
  | none => .error .malformed

end Settings
end OperatorDispatch
