import GovernedCatalog.Rights.Rule

/-!
# The matrix of rights

The matrix has a row for every entity of a model, the system schema's last, and
a letter for the decision on each right.
-/

namespace GovernedCatalog

def Decision.letter : Decision → Char
  | allow => 'a'
  | deny => 'd'
  | indeterminate => 'i'

/-- A table with all it owns, under labels. -/
def Table.entities (t : Table) : List (String × Entity) :=
  let path := t.path.display
  (path, .table t) ::
    (t.columns.map (fun c => (path ++ ":" ++ c.name, Entity.column c)) ++
      t.keys.values.map (fun k =>
        (path ++ " key " ++ k.columns.display, Entity.key k)) ++
      t.foreignKeys.values.map (fun fk =>
        (path ++ " fkey " ++ fk.columns.display, Entity.foreignKey fk)) ++
      t.references.map fun r => (r.id.display, Entity.reference r))

def Schema.entities (s : Schema) : List (String × Entity) :=
  (s.name, .schema s) :: s.tables.values.flatMap Table.entities

def Model.entities (m : Model) : List (String × Entity) :=
  ("catalog", .catalog) ::
    (m.schemas.values.flatMap Schema.entities ++ m.systemSchema.entities)

variable {m : Type → Type} [Monad m] (ask : Ask m)

/-- The decisions on all rights on an entity. -/
def allRights (entity : Entity) : m (List (Right × Decision)) :=
  Right.all.mapM fun right => do return (right, ← ask entity right)

def rightsMatrix (model : Model) : m (List (String × String)) :=
  model.entities.mapM fun (label, entity) => do
    let decisions ← allRights ask entity
    return (label, String.ofList (decisions.map fun e => e.2.letter))

end GovernedCatalog
