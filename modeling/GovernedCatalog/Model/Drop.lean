import GovernedCatalog.Model.Edit

/-!
# Removals from a model

Removing an entity removes what depends on it first, and yields the statements
that delete the stored rows of everything removed.  Where a dependent entity is
gone already the removal fails, and what was removed before stays removed.
-/

namespace GovernedCatalog.Model

/-- A change of a model that keeps its effects when it fails. -/
abbrev Edit := ExceptT Error (StateM Model)

/-- Removes a reference. -/
def dropReference (id : ReferenceId) : Edit (List String) := do
  let m ← get
  let r ← m.reference id
  let without := m.updateTable id.source (·.removeReference id.mapping)
  set (without.updateTable id.mapping.target fun target =>
    target.updateKey id.mapping.toColumns fun key =>
      { key with referencedBy := key.referencedBy.erase id })
  return r.purge m.systemSchema.name

def dropReferences (ids : List ReferenceId) : Edit (List String) := do
  let purges ← ids.mapM dropReference
  return purges.flatten

/-- Removes a key after the references to it. -/
def dropKey (path : TablePath) (columns : ColumnSet) : Edit (List String) := do
  let key ← (← (← get).table path).key columns
  let purges ← dropReferences key.referencedBy.elems
  modify fun m => m.updateTable path (·.removeKey columns)
  return purges ++ key.purge (← get).systemSchema.name

/-- Removes a column after the references from it and the keys with it. -/
def dropColumn (path : TablePath) (name : String) : Edit (List String) := do
  let t ← (← get).table path
  let column ← t.column name
  let references := t.references.filter fun r =>
    r.mapping.fromColumns.contains name
  let keys := t.keys.keys.filter fun columns => columns.contains name
  let referencePurges ← dropReferences (references.map Reference.id)
  let keyPurges ← keys.mapM (dropKey path)
  modify fun m => m.updateTable path (·.removeColumn name)
  return referencePurges ++ keyPurges.flatten ++
    column.purge (← get).systemSchema.name

/-- The references from a table and to its keys. -/
def relatedReferences (t : Table) : SortedSet ReferenceId :=
  .ofList
    (t.references.map Reference.id ++
      t.keys.values.flatMap fun key => key.referencedBy.elems)

/-- Removes a table after the references from it and to it. -/
def dropTable (path : TablePath) : Edit (List String) := do
  let t ← (← get).table path
  let purges ← dropReferences (relatedReferences t).elems
  let t ← (← get).table path
  modify fun m => m.updateSchema path.schema fun s =>
    { s with tables := s.tables.erase path.table }
  return purges ++ t.purge (← get).systemSchema.name

/-- Removes a schema after its tables. -/
def dropSchema (name : String) : Edit (List String) := do
  let s ← (← get).schema name
  let purges ← s.tables.keys.mapM fun table => dropTable ⟨name, table⟩
  modify fun m => { m with schemas := m.schemas.erase name }
  return purges.flatten ++ s.storageKey.purge (← get).systemSchema.name

end GovernedCatalog.Model
