import GovernedCatalog.ColumnType.Document
import GovernedCatalog.Policy.Document
import GovernedCatalog.Rights.Summary

/-!
# Documents of the visible model

A requester gets documents of the entities that are visible to them, with the
rights they hold.  Access lists and bindings are shown to owners.
-/

namespace GovernedCatalog.Render

open Json

variable {m : Type → Type} [Monad m] (ask : Ask m) (model : Model)

def decision (d : Decision) : Json := ofOption (d.truth?.map Json.bool)

def rights (entity : Entity) : m (String × Json) := do
  let summary ← rightsSummary ask entity
  return ("rights",
    object (summary.map fun (right, d) => (right.name, decision d)))

/-- Fields that only an owner of the entity gets. -/
def ownerFields (entity : Entity) (fields : List (String × Json)) :
    m (List (String × Json)) := do
  if ← isOwner ask entity then return fields else return []

/-- The documents of those items that are visible. -/
def visible (entity : α → Entity) (render : α → m Json) :
    List α → m (List Json)
  | [] => return []
  | a :: rest => do
      if ← isVisible ask (entity a) then
        return (← render a) :: (← visible entity render rest)
      else visible entity render rest

/-- The documents of those items that are visible, by name. -/
def visibleByName (entity : α → Entity) (name : α → String)
    (render : α → m Json) : List α → m (List (String × Json))
  | [] => return []
  | a :: rest => do
      if ← isVisible ask (entity a) then
        return (name a, ← render a) :: (← visibleByName entity name render rest)
      else visibleByName entity name render rest

def column (c : Column) : m Json := do
  let rights ← rights ask (.column c)
  let policy ←
    match model.tableOf? c.table with
    | none => pure []
    | some t =>
        ownerFields ask (.table t)
          [("acls", c.acls.toJson), ("acl_bindings", c.bindings.toJson)]
  return object
    ([("name", .str c.name), ("type", c.type.toJson),
        ("default", ofOption c.default?), ("nullok", .bool c.nullable),
        ("comment", Json.optional c.comment),
        ("annotations", ofMap c.annotations), rights] ++ policy)

def key (k : UniqueKey) : Json :=
  object
    [("unique_columns", strings k.columns.elems),
      ("names", .arr (k.constraints.elems.map ConstraintName.toJson)),
      ("comment", Json.optional k.comment),
      ("annotations", ofMap k.annotations)]

/-- The columns of a table that a reference maps. -/
def pointers (table : TablePath) (columns : List String) : Json :=
  .arr (columns.map fun column =>
    object
      [("schema_name", .str table.schema), ("table_name", .str table.table),
        ("column_name", .str column)])

def reference (r : Reference) : m Json := do
  let rights ← rights ask (.reference r)
  let policy ← ownerFields ask (.reference r)
    [("acls", r.acls.toJson), ("acl_bindings", r.bindings.toJson)]
  return object
    ([("foreign_key_columns", pointers r.source r.mapping.sources),
        ("referenced_columns", pointers r.mapping.target r.mapping.targets),
        ("names", .arr (r.constraints.elems.map ConstraintName.toJson)),
        ("on_delete", .str r.onDelete.sql), ("on_update", .str r.onUpdate.sql),
        ("comment", Json.optional r.comment),
        ("annotations", ofMap r.annotations), rights] ++ policy)

/-- The visible references of the visible foreign keys. -/
def references : List ForeignKey → m (List Json)
  | [] => return []
  | fk :: rest => do
      let first ←
        if ← isVisible ask (.foreignKey fk) then
          visible ask .reference (reference ask) fk.references.values
        else pure []
      return first ++ (← references rest)

def table (t : Table) : m Json := do
  let columns ← visible ask .column (column ask model) t.columns
  let keys ← visible ask .key (fun k => pure (key k)) t.keys.values
  let foreignKeys ← references ask t.foreignKeys.values
  let rights ← rights ask (.table t)
  let policy ← ownerFields ask (.table t)
    [("acls", t.acls.toJson), ("acl_bindings", t.bindings.toJson)]
  return object
    ([("schema_name", .str t.schema), ("table_name", .str t.name),
        ("kind", .str t.kind.name), ("comment", Json.optional t.comment),
        ("column_definitions", .arr columns), ("keys", .arr keys),
        ("foreign_keys", .arr foreignKeys),
        ("annotations", ofMap t.annotations), rights] ++ policy)

def schema (s : Schema) : m Json := do
  let tables ←
    visibleByName ask .table Table.name (table ask model) s.tables.values
  let rights ← rights ask (.schema s)
  let policy ← ownerFields ask (.schema s) [("acls", s.acls.toJson)]
  return object
    ([("schema_name", .str s.name), ("comment", Json.optional s.comment),
        ("annotations", ofMap s.annotations), rights,
        ("tables", object tables)] ++ policy)

def catalog : m Json := do
  let schemas ←
    visibleByName ask .schema Schema.name (schema ask model)
      model.schemas.values
  let rights ← rights ask .catalog
  let policy ← ownerFields ask .catalog [("acls", model.acls.toJson)]
  return object
    ([("schemas", object schemas), ("annotations", ofMap model.annotations),
        rights] ++ policy)

/-- The document of an entity of a kind that has one. -/
def entity? : Entity → Option (m Json)
  | .catalog => some (catalog ask model)
  | .schema s => some (schema ask model s)
  | .table t => some (table ask model t)
  | .column c => some (column ask model c)
  | .key k => some (pure (key k))
  | .foreignKey _ => none
  | .reference r => some (reference ask r)

end GovernedCatalog.Render
