import GovernedCatalog.Text.Search

/-!
# Column types

A column's type is a named scalar, an array, or a domain: a named restriction
of another type.
-/

namespace GovernedCatalog

inductive ColumnType where
  | scalar (name : String)
  | array (base : ColumnType)
  | domain (name : String) (base : ColumnType)
  deriving DecidableEq, Repr

/-- Integer types by all their names. -/
def integerNames : List String :=
  ["int2", "int4", "int8", "smallint", "bigint", "integer", "int"]

/-- Integer types that draw their values from a sequence. -/
def serialNames : List String := ["serial2", "serial4", "serial8"]

def realNames : List String :=
  ["float", "float4", "float8", "real", "double precision"]

def textNames : List String :=
  ["text", "character varying", "varchar", "char", "bpchar"]

def documentNames : List String := ["json", "jsonb"]

def booleanNames : List String := ["bool", "boolean"]

/-- Whether values of the named type are texts. -/
def isTextName (name : String) : Bool :=
  textNames.contains name || "character".toList.isPrefixOf name.toList

/-- The type whose values a serial type has. -/
def basicName (name : String) : String :=
  match name with
  | "serial2" => "int2"
  | "serial4" => "int4"
  | "serial8" => "int8"
  | _ => name

namespace ColumnType

def text : ColumnType := scalar "text"

/-- The type of full-text search vectors. -/
def searchVector : ColumnType := scalar "tsvector"

def name : ColumnType → String
  | scalar name => name
  | array base => base.name ++ "[]"
  | domain name _ => name

def isArray : ColumnType → Bool
  | array _ => true
  | _ => false

def isDomain : ColumnType → Bool
  | domain _ _ => true
  | _ => false

/-- The scalar below all domains. -/
def storageName? : ColumnType → Option String
  | scalar name => some name
  | array _ => none
  | domain _ base => base.storageName?

def isText (t : ColumnType) : Bool :=
  match t.storageName? with
  | some name => isTextName name
  | none => false

/-- The type's name in SQL. -/
def sql (t : ColumnType) : String := t.name

/-- The name in SQL of the type that values are stored as. -/
def storageSql : ColumnType → String
  | scalar name => basicName name
  | array base => base.storageSql ++ "[]"
  | domain name _ => name

end ColumnType

end GovernedCatalog
