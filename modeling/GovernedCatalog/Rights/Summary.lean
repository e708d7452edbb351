import GovernedCatalog.Rights.Rule

/-!
# Questions about rights

What is asked of the rules when entities are listed, shown and guarded.
-/

namespace GovernedCatalog

variable {m : Type → Type} [Monad m] (ask : Ask m)

/-- Whether an entity is visible to the requester at all. -/
def isVisible (entity : Entity) : m Bool := do
  return (← ask entity .enumerate) != .deny

def isOwner (entity : Entity) : m Bool := do
  return (← ask entity .owner) == .allow

/-- The rights that are reported when an entity is shown. -/
def Entity.reportedRights : Entity → List Right
  | catalog | schema _ => [.owner, .create]
  | table _ => [.owner, .insert, .update, .delete, .select]
  | column _ => [.insert, .update, .delete, .select]
  | reference _ => [.insert, .update]
  | key _ | foreignKey _ => []

def rightsSummary (entity : Entity) : m (List (Right × Decision)) :=
  entity.reportedRights.mapM fun right => do
    return (right, ← ask entity right)

/-- Whether a column needs a guard of its own beside the filter of its table's
rows: it is not allowed, and either its table is, or it replaces a binding of
its table. -/
def isRestricted (model : Model) (c : Column) (right : Right) : m Bool := do
  if (← ask (.column c) right) = .allow then return false
  match model.tableOf? c.table with
  | none => return true
  | some t =>
      if (← ask (.table t) right) = .allow then return true
      return c.bindings.keys.any t.bindings.contains

/-- Whether a column holds texts that are visible on every row. -/
def isSearchable (c : Column) : m Bool := do
  if c.isText then return (← ask (.column c) .enumerate) == .allow
  else return false

def searchSources : List Column → m (List String)
  | [] => return []
  | c :: rest => do
      if ← isSearchable ask c then return c.name :: (← searchSources rest)
      else searchSources rest

/-- The search column of a table, as the requester may see it. -/
def searchColumn (t : Table) : m Column := do
  return .search t.path (← searchSources ask t.columns)

end GovernedCatalog
