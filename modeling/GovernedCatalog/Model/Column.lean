import GovernedCatalog.ColumnType.Literal
import GovernedCatalog.Overlay.Annotations
import GovernedCatalog.Overlay.Storage
import GovernedCatalog.Policy.Binding

/-!
# Columns

A column is stored in its table, or is the search column that combines the
texts of a row and exists in queries only.
-/

namespace GovernedCatalog

inductive ColumnContent where
  | stored (position : Nat) (type : ColumnType) (default : Option Json)
  /-- The texts of the source columns, in position order. -/
  | search (sources : List String)

structure Column where
  name : String
  table : TablePath
  content : ColumnContent
  nullable : Bool
  comment : Option String
  annotations : Annotations
  acls : Acls
  bindings : Bindings

namespace Column

/-- A stored column without comment, annotations or policy. -/
def stored (table : TablePath) (name : String) (position : Nat)
    (type : ColumnType) (default : Option Json) : Column :=
  ⟨name, table, .stored position type default, true, none, {}, {}, {}⟩

/-- The name of every search column. -/
def searchName : String := "*"

def search (table : TablePath) (sources : List String) : Column :=
  ⟨searchName, table, .search sources, true, none, {}, {}, {}⟩

def isSearch (c : Column) : Bool :=
  match c.content with
  | .stored _ _ _ => false
  | .search _ => true

def position? (c : Column) : Option Nat :=
  match c.content with
  | .stored position _ _ => some position
  | .search _ => none

def type (c : Column) : ColumnType :=
  match c.content with
  | .stored _ type _ => type
  | .search _ => .searchVector

def default? (c : Column) : Option Json :=
  match c.content with
  | .stored _ _ default => default
  | .search _ => none

def isText (c : Column) : Bool :=
  match c.content with
  | .stored _ type _ => type.isText
  | .search _ => false

def isIndexable (c : Column) : Bool :=
  match c.content with
  | .stored _ type _ => type.name != "json"
  | .search _ => false

/-- The column in SQL, qualified by an alias that is not empty. -/
def sql (c : Column) (alias? : Option String) : String :=
  match alias? with
  | some name =>
      if name.isEmpty then Sql.identifier c.name
      else Sql.identifier name ++ "." ++ Sql.identifier c.name
  | none => Sql.identifier c.name

def storageKey (c : Column) : StorageKey :=
  ⟨.column,
    [("schema_name", .text c.table.schema), ("table_name", .text c.table.table),
      ("column_name", .text c.name)]⟩

/-- The column without annotations and policy. -/
def bare (c : Column) : Column :=
  { c with annotations := {}, acls := {}, bindings := {} }

def purge (c : Column) (systemSchema : String) : List String :=
  c.storageKey.purge systemSchema

end Column

end GovernedCatalog
