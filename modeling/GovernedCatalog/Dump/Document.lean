import GovernedCatalog.Dump.Reader
import GovernedCatalog.Error
import GovernedCatalog.Json.Reader
import GovernedCatalog.Policy.Document

/-!
# Dumps as documents
-/

namespace GovernedCatalog.Dump

open Json

def asTexts? : Json → Option (List (Option String)) :=
  asList (asNullable asString)

/-- The path of a table whose schema and name are two fields. -/
def pathFields (fields : Fields) (schema table : String) : Option TablePath := do
  return ⟨← fields.required schema asString, ← fields.required table asString⟩

def constraintFields (fields : Fields) (schema name : String) :
    Option ConstraintName := do
  return ⟨← fields.required schema asString, ← fields.required name asString⟩

def SchemaRow.ofJson? (j : Json) : Option SchemaRow := do
  let fields ← recordFields ["schema_name", "comment"] j
  return {
    name := ← fields.required "schema_name" asString
    comment := ← fields.optional "comment" asString }

def ColumnsRow.ofJson? (j : Json) : Option ColumnsRow := do
  let fields ← recordFields
    ["table_schema", "table_name", "table_kind", "table_comment",
      "column_names", "default_values", "data_types", "element_types",
      "domain_bases", "comments", "not_nulls"] j
  let schema ← fields.withDefault "table_schema" "" asString
  let table ← fields.withDefault "table_name" "" asString
  return {
    table := ⟨schema, table⟩
    kind := ← fields.withDefault "table_kind" "" asString
    comment := ← fields.optional "table_comment" asString
    names := ← fields.withDefault "column_names" [] asStrings
    defaults := ← fields.withDefault "default_values" [] asTexts?
    types := ← fields.withDefault "data_types" [] asStrings
    elementTypes := ← fields.withDefault "element_types" [] asTexts?
    domainBases := ← fields.withDefault "domain_bases" [] asTexts?
    comments := ← fields.withDefault "comments" [] asTexts?
    notNulls := ← fields.withDefault "not_nulls" [] (asList asBool) }

def TableRow.ofJson? (j : Json) : Option TableRow := do
  let fields ← recordFields
    ["table_schema", "table_name", "table_kind", "comment"] j
  return {
    table := ← pathFields fields "table_schema" "table_name"
    kind := ← fields.required "table_kind" asString
    comment := ← fields.optional "comment" asString }

def UniqueRow.ofJson? (j : Json) : Option UniqueRow := do
  let fields ← recordFields
    ["constraint_schema", "constraint_name", "table_schema", "table_name",
      "column_names", "comment"] j
  return {
    constraint :=
      ← constraintFields fields "constraint_schema" "constraint_name"
    table := ← pathFields fields "table_schema" "table_name"
    columns := ← fields.required "column_names" asStrings
    comment := ← fields.optional "comment" asString }

def ForeignKeyRow.ofJson? (j : Json) : Option ForeignKeyRow := do
  let fields ← recordFields
    ["fk_constraint_schema", "fk_constraint_name", "fk_table_schema",
      "fk_table_name", "fk_column_names", "uq_table_schema", "uq_table_name",
      "uq_column_names", "rc_delete_rule", "rc_update_rule", "comment"] j
  return {
    constraint :=
      ← constraintFields fields "fk_constraint_schema" "fk_constraint_name"
    source := ← pathFields fields "fk_table_schema" "fk_table_name"
    sourceColumns := ← fields.required "fk_column_names" asStrings
    target := ← pathFields fields "uq_table_schema" "uq_table_name"
    targetColumns := ← fields.required "uq_column_names" asStrings
    deleteRule := ← fields.required "rc_delete_rule" asString
    updateRule := ← fields.required "rc_update_rule" asString
    comment := ← fields.optional "comment" asString }

def targetFields : List String :=
  ["schema_name", "table_name", "column_name", "column_names",
    "from_schema_name", "from_table_name", "from_column_names",
    "to_schema_name", "to_table_name", "to_column_names"]

def Target.ofFields? (fields : Fields) : Option Target := do
  return {
    schema := ← fields.optional "schema_name" asString
    table := ← fields.optional "table_name" asString
    column := ← fields.optional "column_name" asString
    columns := ← fields.optional "column_names" asStrings
    sourceSchema := ← fields.optional "from_schema_name" asString
    sourceTable := ← fields.optional "from_table_name" asString
    sourceColumns := ← fields.optional "from_column_names" asStrings
    targetSchema := ← fields.optional "to_schema_name" asString
    targetTable := ← fields.optional "to_table_name" asString
    targetColumns := ← fields.optional "to_column_names" asStrings }

def AnnotationRow.ofJson? (j : Json) : Option AnnotationRow := do
  let fields ←
    objectFields (targetFields ++ ["annotation_uri", "annotation_value"]) j
  return {
    target := ← Target.ofFields? fields
    uri := ← fields.required "annotation_uri" asString
    value := ← fields.required "annotation_value" asAny }

def AclRow.ofJson? (j : Json) : Option AclRow := do
  let fields ← objectFields (targetFields ++ ["acl", "members"]) j
  return {
    target := ← Target.ofFields? fields
    right := ← fields.required "acl" asString
    members := ← fields.required "members" asStrings }

def BindingRow.ofJson? (j : Json) : Option BindingRow := do
  let fields ← objectFields (targetFields ++ ["binding_name", "binding"]) j
  return {
    target := ← Target.ofFields? fields
    name := ← fields.required "binding_name" asString
    binding := ← fields.required "binding" AclBinding.ofJson? }

def Stored.ofJson? (row : Json → Option α) : Json → Option (Stored α) :=
  asEntries StorageKind.ofName? (asList row)

def ofJson? (j : Json) : Option Dump := do
  let fields ← recordFields
    ["schemas", "columns", "tables", "uniques", "foreign_keys", "annotations",
      "acls", "dynacls"] j
  return {
    schemas := ← fields.withDefault "schemas" [] (asList SchemaRow.ofJson?)
    columns := ← fields.withDefault "columns" [] (asList ColumnsRow.ofJson?)
    tables := ← fields.withDefault "tables" [] (asList TableRow.ofJson?)
    uniques := ← fields.withDefault "uniques" [] (asList UniqueRow.ofJson?)
    foreignKeys :=
      ← fields.withDefault "foreign_keys" [] (asList ForeignKeyRow.ofJson?)
    annotations :=
      ← fields.withDefault "annotations" [] (Stored.ofJson? AnnotationRow.ofJson?)
    acls := ← fields.withDefault "acls" [] (Stored.ofJson? AclRow.ofJson?)
    bindings :=
      ← fields.withDefault "dynacls" [] (Stored.ofJson? BindingRow.ofJson?) }

/-- The dump in a text. -/
def read (text : String) : Except Error Dump :=
  readable ((Json.ofText? text).bind ofJson?)

end GovernedCatalog.Dump
