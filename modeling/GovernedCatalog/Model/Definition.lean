import GovernedCatalog.Model.Basic

/-!
# Definitions in SQL

The statements that create a table, the indexes of its columns, and the value
map: a table of the system schema with every text of the catalog.
-/

namespace GovernedCatalog

namespace Column

/-- The column in the definition of its table. -/
def definition (c : Column) : Except Error String :=
  match c.content with
  | .search _ => .error (.noPhysicalColumn c.name c.table)
  | .stored _ type default? => do
      let defaults ←
        match default?.filter fun v => !v.isNull with
        | some v => (type.literal v).map fun constant => ["DEFAULT " ++ constant]
        | none => pure []
      let nulls := if c.nullable then [] else ["NOT NULL"]
      return Text.join " "
        ([Sql.identifier c.name, type.sql] ++ defaults ++ nulls)

/-- The column in the definition of a temporary table for input. -/
def inputDefinition (c : Column) (alias? : Option String) : String :=
  Sql.identifier (alias?.getD c.name) ++ " " ++ c.type.storageSql

/-- The text of the column's value, as searches see it. -/
def textSql (c : Column) (alias? : Option String) (systemSchema : String) :
    String :=
  Sql.identifier systemSchema ++ ".astext(" ++ c.sql alias? ++ ")"

end Column

namespace Table

def createStatement (t : Table) : Except Error String := do
  let columns ← (t.columns.filter fun c => !c.isSearch).mapM Column.definition
  let keys := t.keys.values.map fun key =>
    "UNIQUE(" ++ Text.join ", " (key.columns.elems.map Sql.identifier) ++ ")"
  return "CREATE TABLE " ++ t.path.sql ++ " (\n  " ++
    Text.join ",\n  " (columns ++ keys) ++ "\n);"

/-- The statements that create an index anew. -/
def indexStatements (t : Table) (index target : String) : String :=
  "DROP INDEX IF EXISTS " ++ Sql.qualified t.schema index ++
    " ;\nCREATE INDEX " ++ Sql.identifier index ++ " ON " ++ t.path.sql ++
    " " ++ target ++ " ;"

/-- The name of a column's index of the given kind. -/
def indexName (t : Table) (c : Column) (kind : String) (limit : Nat) : String :=
  Sql.derivedName [t.name, c.name] kind limit

/-- The index on a column's values, unless the column is a key by itself. -/
def valueIndex? (t : Table) (c : Column) (limit : Nat) : Option String :=
  if c.isSearch || !c.isIndexable || t.keys.contains (.ofList [c.name]) then
    none
  else
    some (t.indexStatements (t.indexName c "idx" limit)
      ("( " ++ Sql.identifier c.name ++ " )"))

/-- The index on the parts of a column's texts. -/
def textIndex? (t : Table) (c : Column) (systemSchema : String)
    (limit : Nat) : Option String :=
  if c.isSearch || !c.isText then none
  else
    some (t.indexStatements (t.indexName c "pgtrgm_idx" limit)
      ("USING gin ( " ++ c.textSql none systemSchema ++ " gin_trgm_ops )"))

end Table

namespace ValueMap

def tableName : String := "valuemap"

def columnNames : List String := ["schema", "table", "column", "value"]

/-- The query for the texts of a column. -/
def source (t : Table) (systemSchema : String) (c : Column) : String :=
  "SELECT DISTINCT " ++ Sql.literal t.schema ++ "::text, " ++
    Sql.literal t.name ++ "::text, " ++ Sql.literal c.name ++ "::text, " ++
    c.textSql none systemSchema ++ " FROM " ++ t.path.sql

/-- The queries for the texts of all columns that have them. -/
def sources (m : Model) : List String :=
  (m.schemas.values.flatMap fun s => s.tables.values).flatMap fun t =>
    (t.columns.filter Column.isText).map (source t m.systemSchema.name)

def noSource : String :=
  "SELECT 's'::text, 't'::text, 'c'::text, 'v'::text WHERE False"

/-- The statements that build the value map from the given queries. -/
def statements (systemSchema : String) (queries : List String) : List String :=
  let table := Sql.qualified systemSchema tableName
  let columns := columnNames.map Sql.identifier
  let index (name target : String) :=
    "CREATE INDEX " ++ Sql.identifier (systemSchema ++ name) ++ " ON " ++
      table ++ " " ++ target ++ " ;"
  ["DROP TABLE IF EXISTS " ++ table ++ " ;",
    "CREATE TABLE " ++ table ++ " (" ++ Text.join ", " columns ++ ") AS " ++
      Text.join " UNION " (if queries.isEmpty then [noSource] else queries) ++
      " ;",
    index "_valuemap_cluster_idx"
      ("(" ++ Text.join ", " (columns.take 3) ++ ")"),
    index "_valuemap_value_idx"
      ("USING gin ( " ++ Text.join "" (columns.drop 3) ++ " gin_trgm_ops )")]

/-- The statements that build the value map of a model, or an empty one. -/
def rebuild (m : Model) (empty : Bool) : List String :=
  statements m.systemSchema.name (if empty then [] else sources m)

/-- The value map among the tables of the system schema. -/
def table (systemSchema : String) : Table :=
  let bare := Table.fresh systemSchema tableName .table
  { bare with
    columns := columnNames.zipIdx.map fun (name, position) =>
      Column.stored bare.path name position .text none }

end ValueMap

end GovernedCatalog
