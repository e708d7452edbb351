import GovernedCatalog.Model.Column
import GovernedCatalog.Model.Key

/-!
# Tables

A table owns its columns, in the order of their positions, its unique keys and
its foreign keys.
-/

namespace GovernedCatalog

inductive TableKind where
  | table
  | view
  | foreignTable
  | materializedView
  deriving DecidableEq, Repr

namespace TableKind

def name : TableKind → String
  | table => "table"
  | view => "view"
  | foreignTable => "foreign_table"
  | materializedView => "materialized_view"

/-- The letters of the database's catalog and the names of documents. -/
def ofText? (s : String) : Option TableKind :=
  match s with
  | "r" | "t" | "table" => some table
  | "v" | "view" => some view
  | "f" | "foreign_table" => some foreignTable
  | "m" | "materialized_view" => some materializedView
  | _ => none

def ofText (s : String) : Except Error TableKind :=
  match ofText? s with
  | some kind => .ok kind
  | none => .error (.unknownTableKind s)

end TableKind

structure Table where
  schema : String
  name : String
  kind : TableKind
  comment : Option String
  columns : List Column
  keys : SortedMap ColumnSet UniqueKey
  foreignKeys : SortedMap ColumnSet ForeignKey
  annotations : Annotations
  acls : Acls
  bindings : Bindings

namespace Table

/-- A table without columns, keys, comment, annotations or policy. -/
def fresh (schema name : String) (kind : TableKind) : Table :=
  ⟨schema, name, kind, none, [], {}, {}, {}, {}, {}⟩

def path (t : Table) : TablePath := ⟨t.schema, t.name⟩

def column? (t : Table) (name : String) : Option Column :=
  t.columns.find? fun c => c.name == name

def hasColumn (t : Table) (name : String) : Bool := (t.column? name).isSome

def column (t : Table) (name : String) : Except Error Column :=
  match t.column? name with
  | some c => .ok c
  | none => .error (.noColumn name t.path)

def key (t : Table) (columns : ColumnSet) : Except Error UniqueKey :=
  match t.keys.get? columns with
  | some key => .ok key
  | none => .error (.noKey columns t.path)

def foreignKey (t : Table) (columns : ColumnSet) : Except Error ForeignKey :=
  match t.foreignKeys.get? columns with
  | some fk => .ok fk
  | none => .error (.noForeignKey columns t.path)

/-- The table's references, in the order of its foreign keys. -/
def references (t : Table) : List Reference :=
  t.foreignKeys.values.flatMap fun fk => fk.references.values

/-- The first reference with the given constraint. -/
def referenceNamed? (t : Table) (constraint : ConstraintName) :
    Option Reference :=
  t.references.find? fun r => r.constraints.contains constraint

/-- Whether a column stands after another in the order of positions. -/
def isAfter (c d : Column) : Bool :=
  match c.position?, d.position? with
  | some p, some q => q < p
  | some _, none => true
  | none, _ => false

/-- Puts a column before the first one with a greater position. -/
def insertColumn (column : Column) : List Column → List Column
  | [] => [column]
  | c :: rest =>
      if isAfter c column then column :: c :: rest
      else c :: insertColumn column rest

def addColumn (t : Table) (column : Column) : Except Error Table :=
  if column.isSearch then .error .derivedColumn
  else if t.hasColumn column.name then
    .error (.columnExists column.name t.path)
  else .ok { t with columns := insertColumn column t.columns }

/-- The position after that of every column. -/
def nextPosition (t : Table) : Nat :=
  t.columns.foldl (fun next c => max next (c.position?.elim 0 (· + 1))) 0

def updateColumn (t : Table) (name : String) (f : Column → Column) : Table :=
  { t with
    columns := t.columns.map fun c => if c.name == name then f c else c }

def removeColumn (t : Table) (name : String) : Table :=
  { t with columns := t.columns.eraseP fun c => c.name == name }

/-- The table with the given key, which keeps its properties if it is there
already. -/
def addKey (t : Table) (columns : ColumnSet)
    (constraint? : Option ConstraintName) : Table :=
  let keys := t.keys.getOrInsert columns (.fresh t.path columns)
  { t with keys := keys.modify columns (·.addConstraint constraint?) }

def updateKey (t : Table) (columns : ColumnSet)
    (f : UniqueKey → UniqueKey) : Table :=
  { t with keys := t.keys.modify columns f }

def reference? (t : Table) (mapping : ReferenceMap) : Option Reference :=
  (t.foreignKeys.get? mapping.fromColumns).bind fun fk =>
    fk.references.get? mapping

def updateReference (t : Table) (mapping : ReferenceMap)
    (f : Reference → Reference) : Table :=
  { t with
    foreignKeys := t.foreignKeys.modify mapping.fromColumns fun fk =>
      { fk with references := fk.references.modify mapping f } }

/-- The table with the given reference, which keeps its properties if it is
there already. -/
def addReference (t : Table) (fresh : Reference)
    (constraint? : Option ConstraintName) : Table :=
  let columns := fresh.mapping.fromColumns
  let foreignKeys :=
    t.foreignKeys.getOrInsert columns (.fresh fresh.source columns)
  { t with
    foreignKeys := foreignKeys.modify columns fun fk =>
      { fk with
        references := (fk.references.getOrInsert fresh.mapping fresh).modify
          fresh.mapping (·.addConstraint constraint?) } }

/-- The table without a reference, and without its foreign key if that was the
last one. -/
def removeReference (t : Table) (mapping : ReferenceMap) : Table :=
  let foreignKeys := t.foreignKeys.modify mapping.fromColumns fun fk =>
    { fk with references := fk.references.erase mapping }
  { t with
    foreignKeys := foreignKeys.filter fun columns fk =>
      compare mapping.fromColumns columns != .eq || !fk.references.isEmpty }

def removeKey (t : Table) (columns : ColumnSet) : Table :=
  { t with keys := t.keys.erase columns }

def storageKey (t : Table) : StorageKey :=
  ⟨.table, [("schema_name", .text t.schema), ("table_name", .text t.name)]⟩

/-- The statements that delete the stored rows of the table and of all it
owns. -/
def purge (t : Table) (systemSchema : String) : List String :=
  t.references.flatMap (·.purge systemSchema) ++
    t.keys.values.flatMap (·.purge systemSchema) ++
    t.columns.flatMap (·.purge systemSchema) ++
    t.storageKey.purge systemSchema

/-- The table without annotations and policy, its own or of what it owns. -/
def bare (t : Table) : Table :=
  { t with
    foreignKeys := t.foreignKeys.mapValues fun _ fk =>
      { fk with references := fk.references.mapValues fun _ r => r.bare }
    keys := t.keys.mapValues fun _ key => key.bare
    columns := t.columns.map Column.bare
    annotations := {}
    acls := {}
    bindings := {} }

end Table

end GovernedCatalog
