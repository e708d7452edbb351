import GovernedCatalog.Guard.Column
import GovernedCatalog.Introspection.Report
import GovernedCatalog.Rights.Context
import GovernedCatalog.Rights.Render

/-!
# Catalogs

A catalog is a published model with the settings and the report of the
introspection it came from.  Requesters get the document of the model they may
see and the queries that show them what they may select.
-/

namespace GovernedCatalog

/-! ## Publication of models

A cell holds the published model.  Readers keep the snapshot they took; a new
model replaces the published one only after it was built completely.  Versions
count the publications and tell the snapshots of a cell apart. -/

structure Cell where
  version : Nat
  model : Model

namespace Cell

def fresh (m : Model) : Cell := ⟨1, m⟩

def snapshot (c : Cell) : Snapshot := ⟨c.version, c.model⟩

def publish (c : Cell) (m : Model) : Cell := ⟨c.version + 1, m⟩

/-- Publishes the outcome of a build that succeeds. -/
def refresh (c : Cell) (build : Except ε Model) : Except ε Cell :=
  build.map c.publish

/-- Publishes the outcome of a change that succeeds. -/
def update (c : Cell) (change : Model → Except ε (α × Model)) :
    Except ε (α × Cell) :=
  (change c.model).map fun (a, m) => (a, c.publish m)

end Cell

/-! ## Catalogs and what requesters see of them -/

/-- The alias of the table in a query. -/
def queryAlias : String := "t0"

namespace Query

variable {m : Type → Type} [Monad m] (ask : Ask m) (model : Model)
  (roles : Roles)

def fail (e : Error) : ExceptT Guard.Fault m α := throw (.failed e)

/-- A table that the requester can see and select from. -/
def selectable (path : TablePath) : ExceptT Guard.Fault m Table := do
  match model.table path with
  | .error _ => fail (.hiddenTable path)
  | .ok t =>
      if !(← ExceptT.lift (isVisible ask (.table t))) then fail (.hiddenTable path)
      else if (← ask (.table t) .select) = .deny then
        fail (.selectDeniedOnTable t.path)
      else return t

/-- The items of a query for those columns that the requester can select. -/
def items : List Column → ExceptT Guard.Fault m (List String)
  | [] => return []
  | c :: rest => do
      if (← ask (.column c) .select) = .deny then items rest
      else
        let item ← ExceptT.mk
          (Guard.selectItem ask model roles c (some queryAlias) .select)
        return item :: (← items rest)

/-- The query for the rows and columns of a table that the requester can
select. -/
def select (path : TablePath) : ExceptT Guard.Fault m String := do
  let t ← selectable ask model path
  let items ← items ask model roles t.columns
  if items.isEmpty then fail (.nothingSelectable t.path)
  else
    let filter ← ExceptT.lift
      (Guard.compileTable ask model roles t (some queryAlias) .select)
    let filter ← ExceptT.mk (pure (filter.mapError Guard.Fault.failed))
    return "SELECT " ++ Text.join ", " items ++ " FROM " ++ t.path.sql ++
      " AS " ++ Sql.identifier queryAlias ++ " WHERE " ++ filter

/-- The guards of a column, as a value and as a condition. -/
def column (path : TablePath) (name : String) :
    ExceptT Guard.Fault m (String × String) := do
  let t ← selectable ask model path
  match t.column? name with
  | none => fail (.hiddenColumn name path)
  | some c =>
      if !(← ExceptT.lift (isVisible ask (.column c))) then fail (.hiddenColumn name path)
      else if (← ask (.column c) .select) = .deny then
        fail (.selectDeniedOnColumn c.name c.table)
      else
        let guard (mode : Guard.Mode) : ExceptT Guard.Fault m String :=
          ExceptT.mk (Guard.compileColumn ask model roles c (some queryAlias)
            mode .select)
        let projection ← guard .projection
        return (projection, ← guard .predicate)

end Query

structure Catalog where
  settings : Settings
  cell : Cell
  /-- The report of the last introspection that succeeded. -/
  lastReport : Option Report

namespace Catalog

/-- A catalog with an empty model. -/
def fresh (settings : Settings) : Catalog :=
  ⟨settings, .fresh (.fresh settings.naming.systemSchema), none⟩

/-- Publishes the model that an introspection builds, with its report. -/
def refresh (c : Catalog) (reader : Reader) : Except Error Catalog := do
  let result ← Introspection.run reader c.settings
  return { c with
    cell := c.cell.publish result.model
    lastReport := some result.report }

def ofReader (settings : Settings) (reader : Reader) : Except Error Catalog :=
  (fresh settings).refresh reader

def version (c : Catalog) : Nat := c.cell.version

def render (c : Catalog) (ctx : Context) : Json × Context :=
  c.cell.snapshot.evaluate ctx fun ask => Render.catalog ask c.cell.model

def select (c : Catalog) (ctx : Context) (path : TablePath) :
    Except Guard.Fault String × Context :=
  c.cell.snapshot.evaluate ctx fun ask =>
    (Query.select ask c.cell.model ctx.roles path).run

def column (c : Catalog) (ctx : Context) (path : TablePath) (name : String) :
    Except Guard.Fault (String × String) × Context :=
  c.cell.snapshot.evaluate ctx fun ask =>
    (Query.column ask c.cell.model ctx.roles path name).run

end Catalog

end GovernedCatalog
