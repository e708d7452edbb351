import GovernedCatalog.Guard.Column

/-!
# Guards of a whole table

The guards of a table are the filter of its rows and both guards of each column
that the requester is not denied.
-/

namespace GovernedCatalog.Guard

structure ColumnGuards where
  column : String
  /-- The projection and the predicate, unless the column is denied. -/
  guards : Option (Except Fault String × Except Fault String)

structure TableGuards where
  filter : Except Error String
  columns : List ColumnGuards

variable {m : Type → Type} [Monad m] (ask : Ask m) (model : Model)
  (roles : Roles)

def columnGuards (alias? : Option String) (right : Right) (c : Column) :
    m ColumnGuards := do
  if (← ask (.column c) right) = .deny then return ⟨c.name, none⟩
  else
    let projection ← compileColumn ask model roles c alias? .projection right
    let predicate ← compileColumn ask model roles c alias? .predicate right
    return ⟨c.name, some (projection, predicate)⟩

def tableGuards (t : Table) (alias? : Option String) (right : Right) :
    m TableGuards := do
  let filter ← compileTable ask model roles t alias? right
  let columns ←
    t.columns.mapM (columnGuards ask model roles alias? right)
  return ⟨filter, columns⟩

end GovernedCatalog.Guard
