import GovernedCatalog.Sql.Name

/-!
# Stored overlays

The system schema holds the annotations, access lists and bindings of each kind
of entity in tables of their own, whose rows are keyed by the names of the
entity.
-/

namespace GovernedCatalog

inductive StorageKind where
  | catalog
  | schema
  | table
  | column
  | key
  | keyReference
  deriving DecidableEq, Repr

namespace StorageKind

def all : List StorageKind := [catalog, schema, table, column, key, keyReference]

def name : StorageKind → String
  | catalog => "catalog"
  | schema => "schema"
  | table => "table"
  | column => "column"
  | key => "key"
  | keyReference => "keyref"

def ofName? (s : String) : Option StorageKind := all.find? fun k => k.name == s

def hasAcls (kind : StorageKind) : Bool := kind != key

def hasBindings : StorageKind → Bool
  | table | column | keyReference => true
  | _ => false

def annotationTable (kind : StorageKind) : String :=
  "model_" ++ kind.name ++ "_annotation"

def aclTable (kind : StorageKind) : String := "model_" ++ kind.name ++ "_acl"

def bindingTable (kind : StorageKind) : String :=
  "model_" ++ kind.name ++ "_dynacl"

/-- The tables with rows of this kind. -/
def tables (kind : StorageKind) : List String :=
  kind.annotationTable ::
    ((if kind.hasAcls then [kind.aclTable] else []) ++
      if kind.hasBindings then [kind.bindingTable] else [])

end StorageKind

inductive KeyValue where
  | text (s : String)
  | textArray (items : List String)
  deriving DecidableEq, Repr

def KeyValue.sql : KeyValue → String
  | text s => Sql.literal s
  | textArray items => Sql.textArray items

/-- The rows of one entity: its kind, and the value of each key column. -/
structure StorageKey where
  kind : StorageKind
  columns : List (String × KeyValue)
  deriving DecidableEq, Repr

namespace StorageKey

/-- The condition on the rows of the entity. -/
def condition (key : StorageKey) : String :=
  if key.columns.isEmpty then "True"
  else
    Text.join " AND "
      (key.columns.map fun c => Sql.identifier c.1 ++ " = " ++ c.2.sql)

/-- The statements that delete all rows of the entity. -/
def purge (key : StorageKey) (systemSchema : String) : List String :=
  key.kind.tables.map fun table =>
    "DELETE FROM " ++ Sql.qualified systemSchema table ++ " WHERE " ++
      key.condition ++ ";"

end StorageKey

end GovernedCatalog
