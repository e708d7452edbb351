import GovernedCatalog.Model.Document
import GovernedCatalog.Model.Edit

/-!
# Applying documents

A document adds its schema or table with everything in it, or fails and adds
nothing.  The tables of a schema are all added before the first of their foreign
keys, so these can refer to each other in any order.
-/

namespace GovernedCatalog

/-- A field that the document must have. -/
def requireField (what field : String) (value? : Option α) : Except Error α :=
  match value? with
  | some a => .ok a
  | none => .error (.missingField what field)

/-- A default of null is none. -/
def givenDefault (default? : Option Json) : Option Json :=
  default?.filter fun v => !v.isNull

namespace ColumnDocument

def build (doc : ColumnDocument) (table : TablePath) (position : Nat)
    (settings : Settings) : Except Error Column := do
  let name ← requireField "Column" "name" doc.name
  checkName "Column" name
  let type ← (← requireField "Column" "type" doc.type).build settings false
  let default? := givenDefault doc.default
  if let some value := default? then
    discard (type.literal value)
  doc.acls.validate .column
  doc.bindings.validate .column
  return { Column.stored table name position type default? with
    nullable := doc.nullable.getD true
    comment := doc.comment
    annotations := doc.annotations
    acls := doc.acls
    bindings := doc.bindings }

end ColumnDocument

namespace KeyDocument

/-- The key with the document's constraints, comment and annotations. -/
def describe (doc : KeyDocument) (key : UniqueKey) : UniqueKey :=
  { key with
    constraints := doc.constraints.foldl SortedSet.insert key.constraints
    comment := doc.comment.or key.comment
    annotations := key.annotations.overlay doc.annotations }

def addTo (doc : KeyDocument) (t : Table) : Except Error Table := do
  let names ← requireField "Key" "unique_columns" doc.columns
  if let some name := names.find? fun name => !t.hasColumn name then
    throw (.noKeyColumn name t.path)
  doc.constraints.forM fun c => checkName "Key constraint" c.name
  let columns : ColumnSet := .ofList names
  return (t.addKey columns none).updateKey columns doc.describe

end KeyDocument

namespace TableDocument

/-- The described table, without its foreign keys. -/
def build (doc : TableDocument) (schema : String) (settings : Settings) :
    Except Error Table := do
  let name ← requireField "Table" "table_name" doc.name
  checkName "Table" name
  if let some found := doc.schema then
    if found != schema then throw (.schemaMismatch found schema)
  let kind ←
    match doc.kind with
    | some kind => TableKind.ofText kind
    | none => pure .table
  doc.acls.validate .table
  doc.bindings.validate .table
  let bare : Table := { Table.fresh schema name kind with
    comment := doc.comment
    annotations := doc.annotations
    acls := doc.acls
    bindings := doc.bindings }
  let withColumns ← doc.columns.zipIdx.foldlM (fun t (column, position) => do
    t.addColumn (← column.build bare.path position settings)) bare
  doc.keys.foldlM (fun t key => key.addTo t) withColumns

end TableDocument

/-- The table of a column that a document of the table `inside` points to. -/
def ColumnPointer.tablePath (p : ColumnPointer) (inside : TablePath) :
    TablePath :=
  ⟨p.schema.getD inside.schema, p.table.getD inside.table⟩

namespace ForeignKeyDocument

/-- The mapping that the document of a foreign key of `source` describes. -/
def mapping (doc : ForeignKeyDocument) (source : TablePath) :
    Except Error ReferenceMap := do
  let sources ←
    requireField "Foreign key" "foreign_key_columns" doc.sources
  let targets ←
    requireField "Foreign key" "referenced_columns" doc.targets
  if sources.length ≠ targets.length then throw .unequalColumnLists
  match targets with
  | [] => throw .unequalColumnLists
  | first :: _ =>
      let target := first.tablePath source
      if targets.any fun p => p.tablePath source != target then
        throw .scatteredTargets
      if sources.any fun p => p.tablePath source != source then
        throw .foreignSources
      doc.constraints.forM fun c => checkName "Foreign-key constraint" c.name
      doc.acls.validate .keyReference
      doc.bindings.validate .keyReference
      let pairs :=
        (sources.zip targets).map fun (s, t) => (s.column, t.column)
      match ReferenceMap.ofPairs target pairs with
      | .ok mapping => return mapping
      | .error fault => throw (.invalidMapping target fault)

/-- The reference with the document's properties. -/
def describe (doc : ForeignKeyDocument) (r : Reference) : Reference :=
  { r with
    constraints := doc.constraints.foldl SortedSet.insert r.constraints
    comment := doc.comment
    annotations := doc.annotations
    acls := doc.acls
    bindings := doc.bindings }

end ForeignKeyDocument

namespace Model

/-- Adds the described reference to a table. -/
def applyForeignKey (m : Model) (source : TablePath)
    (doc : ForeignKeyDocument) : Except Error Model := do
  let mapping ← doc.mapping source
  let extended ←
    m.addReference source mapping none (doc.onDelete.getD .noAction)
      (doc.onUpdate.getD .noAction)
  return extended.updateTable source (·.updateReference mapping doc.describe)

/-- Adds the described table, without its foreign keys. -/
def applyBareTable (m : Model) (schema : String) (doc : TableDocument)
    (settings : Settings) : Except Error (Model × TablePath) := do
  let t ← doc.build schema settings
  return (← m.addTable schema t, t.path)

/-- Adds the described table. -/
def applyTable (m : Model) (schema : String) (doc : TableDocument)
    (settings : Settings) : Except Error (Model × TablePath) := do
  let (extended, path) ← m.applyBareTable schema doc settings
  let complete ←
    doc.foreignKeys.foldlM (fun m fk => m.applyForeignKey path fk) extended
  return (complete, path)

/-- Adds tables without their foreign keys, which are left to be added to the
paths in the result. -/
def applyBareTables (m : Model) (schema : String) (settings : Settings) :
    List (String × TableDocument) →
      Except Error (Model × List (TablePath × ForeignKeyDocument))
  | [] => return (m, [])
  | (name, doc) :: rest => do
      let named := { doc with name := some (doc.name.getD name) }
      let (extended, path) ← m.applyBareTable schema named settings
      let (complete, later) ← extended.applyBareTables schema settings rest
      return (complete, doc.foreignKeys.map (path, ·) ++ later)

/-- Adds the described schema. -/
def applySchema (m : Model) (doc : SchemaDocument) (settings : Settings) :
    Except Error Model := do
  let name ← requireField "Schema" "schema_name" doc.name
  checkName "Schema" name
  doc.acls.validate .schema
  let added ← m.addSchema { Schema.fresh name with
    comment := doc.comment
    annotations := doc.annotations
    acls := doc.acls }
  let (extended, foreignKeys) ←
    added.applyBareTables name settings doc.tables.entries
  foreignKeys.foldlM (fun m (path, fk) => m.applyForeignKey path fk) extended

/-- Adds the described schemas one after the other. -/
def applySchemas (m : Model) (settings : Settings) :
    List Json → Except Error Model
  | [] => return m
  | j :: rest => do
      let doc ← readable (SchemaDocument.ofJson? j)
      (← m.applySchema doc settings).applySchemas settings rest

/-- The model with the described access lists of the catalog. -/
def applyAcls (m : Model) (acls : Acls) : Except Error Model := do
  let acls ← acls.entries.foldlM
    (fun (set : Acls) (right, members) => set.set .catalog right members) {}
  return { m with acls := acls }

/-- The described model. -/
def ofDocument (doc : CatalogDocument) (settings : Settings) :
    Except Error Model := do
  let empty := fresh
    (doc.systemSchema.getD Settings.standard.naming.systemSchema)
  let m ← { empty with annotations := doc.annotations }.applyAcls doc.acls
  m.applySchemas settings doc.schemas

end Model

end GovernedCatalog
