import GovernedCatalog.ColumnType.Canonical
import GovernedCatalog.Dump.Reader
import GovernedCatalog.Model.Edit

/-!
# The structure of a database

Schemas, columns, tables, keys and references are entered into a model row by
row.  Constraints are entered in the order of their names, so that the model
does not depend on the order of the rows.  A constraint on something unknown
makes the whole database unreadable.
-/

namespace GovernedCatalog.Introspection

open Dump

def isExcluded (settings : Settings) (schema : String) : Bool :=
  settings.naming.excludedSchemas.contains schema

/-- The part of the rows that is not about excluded schemas. -/
def included (settings : Settings) (schema : α → String) (rows : List α) :
    List α :=
  rows.filter fun row => !isExcluded settings (schema row)

def addSchema (m : Model) (row : SchemaRow) : Model :=
  (m.ensureSchema row.name).updateSchema row.name fun s =>
    { s with comment := row.comment }

/-- The model with a table, empty if it is new. -/
def ensureTable (m : Model) (path : TablePath) (kind : String) :
    Except Error Model := do
  let kind ← TableKind.ofText kind
  return (m.ensureSchema path.schema).updateSchema path.schema fun s =>
    { s with
      tables :=
        s.tables.getOrInsert path.table (.fresh path.schema path.table kind) }

/-- The text at a position, if the list is long enough and has one there. -/
def textAt (texts : List (Option String)) (position : Nat) : Option String :=
  (texts[position]?).join

def columnType (settings : Settings) (type : String)
    (elementType? domainBase? default? : Option String) :
    Except Error ColumnType :=
  if type = "ARRAY" then
    match elementType? with
    | none => .error .untypedElement
    | some element =>
        (settings.canonicalType true element none).map fun name =>
          .array (.scalar name)
  else
    match domainBase? with
    | some base =>
        (settings.canonicalType true base default?).map fun name =>
          .domain type (.scalar name)
    | none => (settings.canonicalType true type default?).map .scalar

/-- A column of a row, and whether its default had to be left out because it is
no constant. -/
def readColumn (settings : Settings) (row : ColumnsRow) (name : String)
    (position : Nat) : Except Error (Column × Bool) := do
  let some spelling := row.types[position]?
    | throw (.untypedColumn name row.table)
  let raw? := textAt row.defaults position
  let type ← columnType settings spelling (textAt row.elementTypes position)
    (textAt row.domainBases position) raw?
  let (default?, dropped) :=
    match type.default? raw? with
    | .ok value? => (value?, false)
    | .error _ => (none, true)
  let column := { Column.stored row.table name position type default? with
    nullable := !(row.notNulls[position]?.getD false)
    comment := textAt row.comments position }
  return (column, dropped)

/-- A column in reports. -/
def columnLabel (c : Column) : String := c.table.display ++ ":" ++ c.name

/-- Enters the columns of a table, and lists those whose default was left
out. -/
def addColumns (settings : Settings) (m : Model) (row : ColumnsRow) :
    Except Error (Model × List String) := do
  let columns ← row.names.zipIdx.mapM fun (name, position) =>
    readColumn settings row name position
  let m ← ensureTable m row.table row.kind
  let m := m.updateTable row.table fun t =>
    { t with comment := row.comment.or t.comment }
  let m ← columns.foldlM (fun m c => m.addColumn row.table c.1) m
  return (m, (columns.filter (·.2)).map fun c => columnLabel c.1)

def addAllColumns (settings : Settings) (m : Model) :
    List ColumnsRow → Except Error (Model × List String)
  | [] => return (m, [])
  | row :: rest => do
      let (m, dropped) ← addColumns settings m row
      let (m, later) ← addAllColumns settings m rest
      return (m, dropped ++ later)

def addTable (m : Model) (row : TableRow) : Except Error Model := do
  let m ← ensureTable m row.table row.kind
  return m.updateTable row.table fun t =>
    { t with comment := t.comment.or row.comment }

/-- Whether a row comes first by constraint and table. -/
def inOrder (key : α → ConstraintName × TablePath) (a b : α) : Bool :=
  let parts (row : α) := (key row).1.parts ++ (key row).2.parts
  (compare (parts a) (parts b)).isLE

/-- The columns that a constraint names, all of which must exist. -/
def resolveColumns (m : Model) (constraint : ConstraintName)
    (path : TablePath) (names : List String) : Except Error ColumnSet :=
  match m.table? path with
  | none => .error (.danglingTable constraint path)
  | some t =>
      match names.find? fun name => !t.hasColumn name with
      | some name => .error (.danglingColumn constraint path name)
      | none => .ok (.ofList names)

def addUnique (m : Model) (row : UniqueRow) : Except Error Model := do
  let columns ← resolveColumns m row.constraint row.table row.columns
  let m ← m.addKey row.table columns (some row.constraint)
  return m.updateTable row.table fun t => t.updateKey columns fun key =>
    { key with comment := key.comment.or row.comment }

def referentialAction (rule : String) : Except Error ReferentialAction :=
  match ReferentialAction.ofText? rule with
  | some action => .ok action
  | none => .error (.unknownRule rule)

def addForeignKey (m : Model) (row : ForeignKeyRow) : Except Error Model := do
  if row.sourceColumns.length ≠ row.targetColumns.length then
    throw (.unequalMapping row.constraint row.sourceColumns.length
      row.targetColumns.length)
  discard (resolveColumns m row.constraint row.source row.sourceColumns)
  let targets ← resolveColumns m row.constraint row.target row.targetColumns
  unless (← m.table row.target).keys.contains targets do
    throw (.targetNotAKey row.constraint row.target targets)
  let mapping ←
    match ReferenceMap.ofPairs row.target
        (row.sourceColumns.zip row.targetColumns) with
    | .ok mapping => pure mapping
    | .error fault =>
        throw (.brokenMapping row.constraint
          (.invalidMapping row.target fault))
  let onDelete ← referentialAction row.deleteRule
  let onUpdate ← referentialAction row.updateRule
  let m ←
    m.addReference row.source mapping (some row.constraint) onDelete onUpdate
  return m.updateTable row.source fun t => t.updateReference mapping fun r =>
    { r with comment := r.comment.or row.comment }

/-- The structure that the rows of a reader describe, and the columns whose
default was left out. -/
def readStructure (reader : Reader) (settings : Settings) :
    Except Error (Model × List String) := do
  let empty := Model.fresh settings.naming.systemSchema
  let schemas := included settings SchemaRow.name (← reader.schemas)
  let m := schemas.foldl addSchema empty
  let columns := included settings (·.table.schema) (← reader.columns)
  let (m, dropped) ← addAllColumns settings m columns
  let tables := included settings (·.table.schema) (← reader.tables)
  let m ← tables.foldlM addTable m
  let uniques := included settings (·.table.schema) (← reader.uniques)
  let m ← (uniques.mergeSort (inOrder fun row => (row.constraint, row.table)))
    |>.foldlM addUnique m
  let foreignKeys :=
    included settings (·.target.schema)
      (included settings (·.source.schema) (← reader.foreignKeys))
  let m ← (foreignKeys.mergeSort
      (inOrder fun row => (row.constraint, row.source)))
    |>.foldlM addForeignKey m
  return (m, dropped)

end GovernedCatalog.Introspection
