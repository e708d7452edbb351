import GovernedCatalog.Entity.Reference
import GovernedCatalog.Model.Edit

/-!
# Entities of a model

An entity is found by its address, and its annotations, access lists and
bindings are replaced at its address.
-/

namespace GovernedCatalog

/-- Something that rights are decided on. -/
inductive Entity where
  | catalog
  | schema (s : Schema)
  | table (t : Table)
  | column (c : Column)
  | key (key : UniqueKey)
  | foreignKey (fk : ForeignKey)
  | reference (r : Reference)

def Entity.address : Entity → Address
  | catalog => .catalog
  | schema s => .schema s.name
  | table t => .table t.path
  | column c => .column c.table c.name
  | key k => .key k.table k.columns
  | foreignKey fk => .foreignKey fk.table fk.columns
  | reference r => .reference r.id

namespace Model

def entity (m : Model) : Address → Except Error Entity
  | .catalog => .ok .catalog
  | .schema name => (m.schema name).map Entity.schema
  | .table path => (m.table path).map Entity.table
  | .column path name => (m.column path name).map Entity.column
  | .key path columns => do return .key (← (← m.table path).key columns)
  | .foreignKey path columns => do
      return .foreignKey (← (← m.table path).foreignKey columns)
  | .reference id => (m.reference id).map Entity.reference

/-- The annotations of an entity of a kind that has them. -/
def annotationsOf? (m : Model) : Entity → Option Annotations
  | .catalog => some m.annotations
  | .schema s => some s.annotations
  | .table t => some t.annotations
  | .column c => some c.annotations
  | .key k => some k.annotations
  | .foreignKey _ => none
  | .reference r => some r.annotations

/-- The access lists of an entity of a kind that has them. -/
def aclsOf? (m : Model) : Entity → Option (AclKind × Acls)
  | .catalog => some (.catalog, m.acls)
  | .schema s => some (.schema, s.acls)
  | .table t => some (.table, t.acls)
  | .column c => some (.column, c.acls)
  | .key _ | .foreignKey _ => none
  | .reference r => some (.keyReference, r.acls)

/-- The bindings of an entity of a kind that has them. -/
def bindingsOf? : Entity → Option (AclKind × Bindings)
  | .table t => some (.table, t.bindings)
  | .column c => some (.column, c.bindings)
  | .reference r => some (.keyReference, r.bindings)
  | .catalog | .schema _ | .key _ | .foreignKey _ => none

/-- The storage key of an entity of a kind that has one. -/
def storageKeyOf? (m : Model) : Entity → Option StorageKey
  | .catalog => some m.storageKey
  | .schema s => some s.storageKey
  | .table t => some t.storageKey
  | .column c => some c.storageKey
  | .key k => some k.storageKey
  | .foreignKey _ => none
  | .reference r => some r.storageKey

def updateColumn (m : Model) (path : TablePath) (name : String)
    (f : Column → Column) : Model :=
  m.updateTable path (·.updateColumn name f)

def updateKey (m : Model) (path : TablePath) (columns : ColumnSet)
    (f : UniqueKey → UniqueKey) : Model :=
  m.updateTable path (·.updateKey columns f)

def updateReference (m : Model) (id : ReferenceId)
    (f : Reference → Reference) : Model :=
  m.updateTable id.source (·.updateReference id.mapping f)

def setAnnotations (m : Model) (a : Address) (annotations : Annotations) :
    Model :=
  match a with
  | .catalog => { m with annotations := annotations }
  | .schema name =>
      m.updateSchema name fun s => { s with annotations := annotations }
  | .table path =>
      m.updateTable path fun t => { t with annotations := annotations }
  | .column path name =>
      m.updateColumn path name fun c => { c with annotations := annotations }
  | .key path columns =>
      m.updateKey path columns fun k => { k with annotations := annotations }
  | .foreignKey _ _ => m
  | .reference id =>
      m.updateReference id fun r => { r with annotations := annotations }

def setAcls (m : Model) (a : Address) (acls : Acls) : Model :=
  match a with
  | .catalog => { m with acls := acls }
  | .schema name => m.updateSchema name fun s => { s with acls := acls }
  | .table path => m.updateTable path fun t => { t with acls := acls }
  | .column path name =>
      m.updateColumn path name fun c => { c with acls := acls }
  | .key _ _ | .foreignKey _ _ => m
  | .reference id => m.updateReference id fun r => { r with acls := acls }

def setBindings (m : Model) (a : Address) (bindings : Bindings) : Model :=
  match a with
  | .table path => m.updateTable path fun t => { t with bindings := bindings }
  | .column path name =>
      m.updateColumn path name fun c => { c with bindings := bindings }
  | .reference id =>
      m.updateReference id fun r => { r with bindings := bindings }
  | .catalog | .schema _ | .key _ _ | .foreignKey _ _ => m

/-- The statements that delete the stored rows of an entity and of all it
owns, for the kinds of entity that go away with their containers. -/
def purgeOf (systemSchema : String) : Entity → List String
  | .table t => t.purge systemSchema
  | .column c => c.purge systemSchema
  | .key k => k.purge systemSchema
  | .reference r => r.purge systemSchema
  | .catalog | .schema _ | .foreignKey _ => []

/-- The model with an entity bared of annotations and policy. -/
def bareAt (m : Model) : Address → Model
  | .table path => m.updateTable path Table.bare
  | .column path name => m.updateColumn path name Column.bare
  | .key path columns => m.updateKey path columns UniqueKey.bare
  | .reference id => m.updateReference id Reference.bare
  | .catalog | .schema _ | .foreignKey _ _ => m

end Model

end GovernedCatalog
