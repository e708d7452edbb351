import GovernedCatalog.Model.Table

/-!
# Models

A model is the catalog of a database: its schemas with their tables, and the
system schema, which holds the catalog's own tables and is not visible among
the others.
-/

namespace GovernedCatalog

structure Schema where
  name : String
  comment : Option String
  tables : SortedMap String Table
  annotations : Annotations
  acls : Acls

namespace Schema

def fresh (name : String) : Schema := ⟨name, none, {}, {}, {}⟩

def table (s : Schema) (name : String) : Except Error Table :=
  match s.tables.get? name with
  | some t => .ok t
  | none => .error (.noTableIn name s.name)

def addTable (s : Schema) (t : Table) : Except Error Schema :=
  if s.tables.contains t.name then .error (.tableExists t.name s.name)
  else .ok { s with tables := s.tables.insert t.name t }

def storageKey (s : Schema) : StorageKey :=
  ⟨.schema, [("schema_name", .text s.name)]⟩

end Schema

structure Model where
  schemas : SortedMap String Schema
  systemSchema : Schema
  annotations : Annotations
  acls : Acls

namespace Model

def fresh (systemSchema : String) : Model :=
  ⟨{}, .fresh systemSchema, {}, {}⟩

def schema (m : Model) (name : String) : Except Error Schema :=
  match m.schemas.get? name with
  | some s => .ok s
  | none => .error (.noSchema name)

def table (m : Model) (path : TablePath) : Except Error Table := do
  (← m.schema path.schema).table path.table

def table? (m : Model) (path : TablePath) : Option Table :=
  (m.schemas.get? path.schema).bind fun s => s.tables.get? path.table

def column (m : Model) (path : TablePath) (name : String) :
    Except Error Column := do
  (← m.table path).column name

/-- The table with the given name, if only one schema has one. -/
def lookupTable (m : Model) (name : String) : Except Error Table :=
  match m.schemas.values.filterMap fun s => s.tables.get? name with
  | [] => .error (.noTable name)
  | [t] => .ok t
  | _ => .error (.ambiguousTable name)

def reference (m : Model) (id : ReferenceId) : Except Error Reference := do
  let t ← m.table id.source
  match t.reference? id.mapping with
  | some r => .ok r
  | none => .error (.noReference id)

/-- The key that a mapping leads to. -/
def referencedKey (m : Model) (mapping : ReferenceMap) :
    Except Error UniqueKey := do
  (← m.table mapping.target).key mapping.toColumns

/-- The references to a table's keys. -/
def inboundReferences (m : Model) (path : TablePath) :
    Except Error (List Reference) := do
  let t ← m.table path
  (t.keys.values.flatMap fun key => key.referencedBy.elems).mapM m.reference

def storageKey (_ : Model) : StorageKey := ⟨.catalog, []⟩

end Model

end GovernedCatalog
