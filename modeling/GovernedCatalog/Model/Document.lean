import GovernedCatalog.ColumnType.Document
import GovernedCatalog.Overlay.Annotations
import GovernedCatalog.Policy.Document

/-!
# Documents of schemas and tables

Clients describe new schemas, tables, columns and keys by documents.  Most
fields may be left out.
-/

namespace GovernedCatalog

open Json

structure ColumnDocument where
  name : Option String
  type : Option TypeDocument
  default : Option Json
  nullable : Option Bool
  comment : Option String
  annotations : Annotations
  acls : Acls
  bindings : Bindings

structure KeyDocument where
  columns : Option (List String)
  constraints : List ConstraintName
  comment : Option String
  annotations : Annotations

/-- A column of a table that may be left implicit. -/
structure ColumnPointer where
  schema : Option String
  table : Option String
  column : String
  deriving DecidableEq, Repr

structure ForeignKeyDocument where
  sources : Option (List ColumnPointer)
  targets : Option (List ColumnPointer)
  constraints : List ConstraintName
  onDelete : Option ReferentialAction
  onUpdate : Option ReferentialAction
  comment : Option String
  annotations : Annotations
  acls : Acls
  bindings : Bindings

structure TableDocument where
  name : Option String
  schema : Option String
  kind : Option String
  comment : Option String
  columns : List ColumnDocument
  keys : List KeyDocument
  foreignKeys : List ForeignKeyDocument
  annotations : Annotations
  acls : Acls
  bindings : Bindings

structure SchemaDocument where
  name : Option String
  comment : Option String
  annotations : Annotations
  acls : Acls
  tables : SortedMap String TableDocument

/-- A whole catalog: its own policy, and its schemas, each of which is read when
those before it have been added. -/
structure CatalogDocument where
  systemSchema : Option String
  acls : Acls
  annotations : Annotations
  schemas : List Json

namespace Json.Fields

def annotations (fields : Fields) : Option Annotations :=
  fields.withDefault "annotations" {} (asMap asAny)

def acls (fields : Fields) : Option Acls :=
  fields.withDefault "acls" {} Acls.ofJson?

def bindings (fields : Fields) : Option Bindings :=
  fields.withDefault "acl_bindings" {} Bindings.ofJson?

def constraints (fields : Fields) : Option (List ConstraintName) :=
  fields.withDefault "names" [] (asList ConstraintName.ofJson?)

end Json.Fields

def ReferentialAction.ofJson? (j : Json) : Option ReferentialAction :=
  (asString j).bind ofText?

def ColumnDocument.ofJson? (j : Json) : Option ColumnDocument := do
  let fields ← recordFields
    ["name", "type", "default", "nullok", "comment", "annotations", "acls",
      "acl_bindings"] j
  return {
    name := ← fields.optional "name" asString
    type := ← fields.optional "type" TypeDocument.ofJson?
    default := ← fields.optional "default" asAny
    nullable := ← fields.optional "nullok" asBool
    comment := ← fields.optional "comment" asString
    annotations := ← fields.annotations
    acls := ← fields.acls
    bindings := ← fields.bindings }

def KeyDocument.ofJson? (j : Json) : Option KeyDocument := do
  let fields ← recordFields
    ["unique_columns", "names", "comment", "annotations"] j
  return {
    columns := ← fields.optional "unique_columns" asStrings
    constraints := ← fields.constraints
    comment := ← fields.optional "comment" asString
    annotations := ← fields.annotations }

def ColumnPointer.ofJson? (j : Json) : Option ColumnPointer := do
  let fields ← recordFields ["schema_name", "table_name", "column_name"] j
  return {
    schema := ← fields.optional "schema_name" asString
    table := ← fields.optional "table_name" asString
    column := ← fields.required "column_name" asString }

def ForeignKeyDocument.ofJson? (j : Json) : Option ForeignKeyDocument := do
  let fields ← recordFields
    ["foreign_key_columns", "referenced_columns", "names", "on_delete",
      "on_update", "comment", "annotations", "acls", "acl_bindings"] j
  return {
    sources :=
      ← fields.optional "foreign_key_columns" (asList ColumnPointer.ofJson?)
    targets :=
      ← fields.optional "referenced_columns" (asList ColumnPointer.ofJson?)
    constraints := ← fields.constraints
    onDelete := ← fields.optional "on_delete" ReferentialAction.ofJson?
    onUpdate := ← fields.optional "on_update" ReferentialAction.ofJson?
    comment := ← fields.optional "comment" asString
    annotations := ← fields.annotations
    acls := ← fields.acls
    bindings := ← fields.bindings }

def TableDocument.ofJson? (j : Json) : Option TableDocument := do
  let fields ← recordFields
    ["table_name", "schema_name", "kind", "comment", "column_definitions",
      "keys", "foreign_keys", "annotations", "acls", "acl_bindings"] j
  return {
    name := ← fields.optional "table_name" asString
    schema := ← fields.optional "schema_name" asString
    kind := ← fields.optional "kind" asString
    comment := ← fields.optional "comment" asString
    columns :=
      ← fields.withDefault "column_definitions" []
        (asList ColumnDocument.ofJson?)
    keys := ← fields.withDefault "keys" [] (asList KeyDocument.ofJson?)
    foreignKeys :=
      ← fields.withDefault "foreign_keys" []
        (asList ForeignKeyDocument.ofJson?)
    annotations := ← fields.annotations
    acls := ← fields.acls
    bindings := ← fields.bindings }

def SchemaDocument.ofJson? (j : Json) : Option SchemaDocument := do
  let fields ← recordFields
    ["schema_name", "comment", "annotations", "acls", "tables"] j
  return {
    name := ← fields.optional "schema_name" asString
    comment := ← fields.optional "comment" asString
    annotations := ← fields.annotations
    acls := ← fields.acls
    tables := ← fields.withDefault "tables" {} (asMap TableDocument.ofJson?) }

def CatalogDocument.ofJson? (j : Json) : Option CatalogDocument := do
  let fields ← objectFields
    ["system_schema", "acls", "annotations", "schemas"] j
  return {
    systemSchema := ← fields.optional "system_schema" asString
    acls := (← fields.optional "acls" Acls.ofJson?).getD {}
    annotations := (← fields.optional "annotations" (asMap asAny)).getD {}
    schemas := (← fields.optional "schemas" (asList some)).getD [] }

end GovernedCatalog
