import GovernedCatalog.Model.Basic

/-!
# Additions to a model

Each addition either yields the extended model or fails and leaves the model as
it is.
-/

namespace GovernedCatalog

/-! ## Lengths of names

The database cuts off longer names, so entities do not get them. -/

/-- Refuses a name that the database would cut off; `what` says in the message
what is named. -/
def checkName (what name : String) : Except Error Unit :=
  if Sql.maxNameBytes < name.utf8ByteSize then .error (.nameTooLong what name)
  else .ok ()

end GovernedCatalog

namespace GovernedCatalog.Model

/-! ## Additions -/

def updateSchema (m : Model) (name : String) (f : Schema → Schema) : Model :=
  { m with schemas := m.schemas.modify name f }

def updateTable (m : Model) (path : TablePath) (f : Table → Table) : Model :=
  m.updateSchema path.schema fun s =>
    { s with tables := s.tables.modify path.table f }

def addSchema (m : Model) (s : Schema) : Except Error Model :=
  if s.name = m.systemSchema.name then .error (.reservedSchema s.name)
  else if m.schemas.contains s.name then .error (.schemaExists s.name)
  else .ok { m with schemas := m.schemas.insert s.name s }

/-- The model with a schema of the given name, empty if it is new. -/
def ensureSchema (m : Model) (name : String) : Model :=
  { m with schemas := m.schemas.getOrInsert name (.fresh name) }

/-- The model without a schema, and the schema. -/
def takeSchema (m : Model) (name : String) : Option Schema × Model :=
  (m.schemas.get? name, { m with schemas := m.schemas.erase name })

/-- The model with the named schema, if it is there, as its system schema. -/
def installSystemSchema (m : Model) (name : String) : Bool × Model :=
  match m.takeSchema name with
  | (some s, rest) => (true, { rest with systemSchema := s })
  | (none, rest) => (false, rest)

def addTable (m : Model) (schema : String) (t : Table) :
    Except Error Model := do
  let s ← (← m.schema schema).addTable t
  return m.updateSchema schema fun _ => s

def addColumn (m : Model) (path : TablePath) (column : Column) :
    Except Error Model := do
  let t ← (← m.table path).addColumn column
  return m.updateTable path fun _ => t

/-- Adds the key over the given columns, or another name for it. -/
def addKey (m : Model) (path : TablePath) (columns : ColumnSet)
    (constraint? : Option ConstraintName) : Except Error Model := do
  let t ← m.table path
  columns.elems.forM fun name => discard (t.column name)
  return m.updateTable path (·.addKey columns constraint?)

/-- Adds a reference, or another name for it.  Its target must be a key. -/
def addReference (m : Model) (source : TablePath) (mapping : ReferenceMap)
    (constraint? : Option ConstraintName)
    (onDelete onUpdate : ReferentialAction) : Except Error Model := do
  let target ← m.table mapping.target
  unless target.keys.contains mapping.toColumns do
    throw (.notAKey mapping.toColumns mapping.target)
  let t ← m.table source
  mapping.fromColumns.elems.forM fun name => discard (t.column name)
  let fresh := Reference.fresh source mapping onDelete onUpdate
  let extended := m.updateTable source (·.addReference fresh constraint?)
  return extended.updateTable mapping.target fun target =>
    target.updateKey mapping.toColumns fun key =>
      { key with referencedBy := key.referencedBy.insert ⟨source, mapping⟩ }

end GovernedCatalog.Model
