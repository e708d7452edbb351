import GovernedCatalog.Error
import GovernedCatalog.Overlay.Storage
import GovernedCatalog.Policy.Binding

/-!
# The database's catalog

The rows of a database's catalog and of its stored overlays, and what answers
queries for them.

## Rows

What the queries against a database's catalog and against the stored overlays
return.  The lists of a `ColumnsRow` belong together by their positions.
-/

namespace GovernedCatalog.Dump

structure SchemaRow where
  name : String
  comment : Option String
  deriving DecidableEq, Repr

/-- The columns of one table. -/
structure ColumnsRow where
  table : TablePath
  kind : String
  comment : Option String
  names : List String
  defaults : List (Option String)
  /-- Names of types; those of arrays are in `elementTypes`. -/
  types : List String
  elementTypes : List (Option String)
  /-- The types that domains restrict. -/
  domainBases : List (Option String)
  comments : List (Option String)
  notNulls : List Bool
  deriving DecidableEq, Repr

structure TableRow where
  table : TablePath
  kind : String
  comment : Option String
  deriving DecidableEq, Repr

structure UniqueRow where
  constraint : ConstraintName
  table : TablePath
  columns : List String
  comment : Option String
  deriving DecidableEq, Repr

structure ForeignKeyRow where
  constraint : ConstraintName
  source : TablePath
  sourceColumns : List String
  target : TablePath
  targetColumns : List String
  deleteRule : String
  updateRule : String
  comment : Option String
  deriving DecidableEq, Repr

/-- The names by which a stored row refers to an entity; which of them are
there depends on the kind of entity. -/
structure Target where
  schema : Option String
  table : Option String
  column : Option String
  columns : Option (List String)
  sourceSchema : Option String
  sourceTable : Option String
  sourceColumns : Option (List String)
  targetSchema : Option String
  targetTable : Option String
  targetColumns : Option (List String)
  deriving DecidableEq, Repr

structure AnnotationRow where
  target : Target
  uri : String
  value : Json

structure AclRow where
  target : Target
  right : String
  members : List String
  deriving DecidableEq, Repr

structure BindingRow where
  target : Target
  name : String
  binding : AclBinding

/-- Rows by the kind of entity they belong to. -/
abbrev Stored (α : Type) := List (StorageKind × List α)

/-- The rows of a kind; of two entries for it the later one counts. -/
def Stored.rows (stored : Stored α) (kind : StorageKind) : List α :=
  ((stored.reverse.find? fun e => e.1 == kind).map (·.2)).getD []

end GovernedCatalog.Dump

namespace GovernedCatalog

/-- All rows of one database. -/
structure Dump where
  schemas : List Dump.SchemaRow
  columns : List Dump.ColumnsRow
  tables : List Dump.TableRow
  uniques : List Dump.UniqueRow
  foreignKeys : List Dump.ForeignKeyRow
  annotations : Dump.Stored Dump.AnnotationRow
  acls : Dump.Stored Dump.AclRow
  bindings : Dump.Stored Dump.BindingRow

/-!
## Readers

A reader answers the queries of an introspection, each of which may fail.  A
dump answers all of them, and accepts every statement.
-/

structure Reader where
  schemas : Except Error (List Dump.SchemaRow)
  columns : Except Error (List Dump.ColumnsRow)
  tables : Except Error (List Dump.TableRow)
  uniques : Except Error (List Dump.UniqueRow)
  foreignKeys : Except Error (List Dump.ForeignKeyRow)
  tableExists : TablePath → Except Error Bool
  annotations : StorageKind → Except Error (List Dump.AnnotationRow)
  acls : StorageKind → Except Error (List Dump.AclRow)
  bindings : StorageKind → Except Error (List Dump.BindingRow)
  execute : (statement : String) → Except Error Unit

/-- The reader with a connection that is lost whenever the named method is
called. -/
def Reader.losing (r : Reader) (method : String) : Reader :=
  let lost {α : Type} (name : String) (answer : Except Error α) :
      Except Error α :=
    if name = method then .error (.backendLost (name ++ ": connection reset"))
    else answer
  { schemas := lost "schemas" r.schemas
    columns := lost "columns" r.columns
    tables := lost "tables" r.tables
    uniques := lost "uniques" r.uniques
    foreignKeys := lost "foreign_keys" r.foreignKeys
    tableExists := fun path => lost "table_exists" (r.tableExists path)
    annotations := fun kind => lost "annotations" (r.annotations kind)
    acls := fun kind => lost "acls" (r.acls kind)
    bindings := fun kind => lost "dynacls" (r.bindings kind)
    execute := fun statement => lost "execute" (r.execute statement) }

namespace Dump

/-- Whether a table is listed, by itself or for its columns. -/
def hasTable (d : Dump) (path : TablePath) : Bool :=
  d.tables.any (fun row => row.table == path) ||
    d.columns.any fun row => row.table == path

def reader (d : Dump) : Reader where
  schemas := .ok d.schemas
  columns := .ok d.columns
  tables := .ok d.tables
  uniques := .ok d.uniques
  foreignKeys := .ok d.foreignKeys
  tableExists path := .ok (d.hasTable path)
  annotations kind := .ok (d.annotations.rows kind)
  acls kind := .ok (d.acls.rows kind)
  bindings kind := .ok (d.bindings.rows kind)
  execute _ := .ok ()

end Dump

end GovernedCatalog
