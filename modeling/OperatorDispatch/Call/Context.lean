import OperatorDispatch.Call.Session
import OperatorDispatch.Call.StandardCatalog
import OperatorDispatch.Report.Failure

/-!
# Compilation contexts

A context is built once from settings and a catalog.  Every session of the context starts from the
same table.
-/

namespace OperatorDispatch

/-- The settings and the table that sessions share. -/
structure Context where
  /-- The settings. -/
  settings : Settings
  /-- The overloads. -/
  table : OverloadTable Strategy

namespace Context

/-- The context of a catalog, and the events on the way. -/
def ofCatalog (settings : Settings) (catalog : Catalog Strategy) :
    Except Failure Context × Array Event :=
  match OverloadTable.ofCatalog settings catalog with
  | (.ok table, journal) =>
      (.ok { settings, table }, journal.push (.contextReady table.size table.mode))
  | (.error cause, journal) => (.error (.table cause), journal)

/-- The context of the standard catalog, and the events on the way. -/
def standard (settings : Settings) : Except Failure Context × Array Event :=
  ofCatalog settings standardCatalog

/-- A fresh session. -/
def session (context : Context) : Session :=
  { table := context.table }

end Context
end OperatorDispatch
