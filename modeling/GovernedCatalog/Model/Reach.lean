import GovernedCatalog.Model.Entity

/-!
# Reaching entities

Edits reach the entities of the visible schemas, and those of the system schema
by its name as long as no visible schema has that name.  References are reached
in the visible schemas only.
-/

namespace GovernedCatalog

/-- The schema through which an entity is reached. -/
def Address.throughSchema? : Address → Option String
  | catalog | reference _ => none
  | schema name => some name
  | table path | column path _ | key path _ | foreignKey path _ =>
      some path.schema

namespace Model

/-- Whether a name is that of the system schema and of no visible one. -/
def namesSystemSchema (m : Model) (name : String) : Bool :=
  !m.schemas.contains name && m.systemSchema.name == name

/-- The model with its system schema among the visible ones, if the name is its
name. -/
def opened (m : Model) (name : String) : Model :=
  if m.namesSystemSchema name then
    { m with schemas := m.schemas.insert name m.systemSchema }
  else m

/-- Takes the system schema back out of a model that was opened for the
name. -/
def closed (m : Model) (name : String) (before : Model) : Model :=
  if before.namesSystemSchema name then
    { m with
      systemSchema := (m.schemas.get? name).getD before.systemSchema
      schemas := m.schemas.erase name }
  else m

/-- Runs a change in which the name reaches a schema. -/
def reaching (m : Model) (name : String)
    (change : Model → Except Error Model) : Except Error Model :=
  (change (m.opened name)).map fun changed => changed.closed name m

def reach (m : Model) (a : Address) : Except Error Entity :=
  match a.throughSchema? with
  | some name => (m.opened name).entity a
  | none => m.entity a

/-- Runs a change of what is at an address. -/
def changeAt (m : Model) (a : Address) (change : Model → Model) : Model :=
  match a.throughSchema? with
  | some name => (change (m.opened name)).closed name m
  | none => change m

end Model

end GovernedCatalog
