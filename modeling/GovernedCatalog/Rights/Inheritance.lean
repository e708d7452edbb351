import GovernedCatalog.Model.Basic

/-!
# Inherited access lists

An entity's own list for a right is final.  Without one, the list of its
container decides: a column and a reference inherit from their table, a table
from its schema, and a schema from the catalog.
-/

namespace GovernedCatalog

/-! ## Decisions

A right is allowed, denied, or allowed on some rows only.  The three decisions
are ordered by strength: deny, indeterminate, allow. -/

inductive Decision where
  | allow
  | deny
  /-- Only the bindings of a row can tell. -/
  | indeterminate
  deriving DecidableEq, Repr

namespace Decision

def name : Decision → String
  | allow => "allow"
  | deny => "deny"
  | indeterminate => "indeterminate"

def ofName? : String → Option Decision
  | "allow" => some allow
  | "deny" => some deny
  | "indeterminate" => some indeterminate
  | _ => none

/-- The weaker of two decisions. -/
def and : Decision → Decision → Decision
  | deny, _ | _, deny => deny
  | allow, allow => allow
  | _, _ => indeterminate

/-- The stronger of two decisions. -/
def or : Decision → Decision → Decision
  | allow, _ | _, allow => allow
  | deny, deny => deny
  | _, _ => indeterminate

/-- The decision as a truth value; none stands for indeterminate. -/
def truth? : Decision → Option Bool
  | allow => some true
  | deny => some false
  | indeterminate => none

end Decision

/-! ## Lists of containers -/

namespace Model

/-- The schema of a name; the system schema comes before the others. -/
def schemaOf? (m : Model) (name : String) : Option Schema :=
  if name = m.systemSchema.name then some m.systemSchema
  else m.schemas.get? name

def tableOf? (m : Model) (path : TablePath) : Option Table :=
  (m.schemaOf? path.schema).bind fun s => s.tables.get? path.table

def aclFor? (m : Model) (right : Right) : Option (List String) :=
  m.acls.listFor? .catalog right

end Model

def Schema.aclFor? (m : Model) (s : Schema) (right : Right) :
    Option (List String) :=
  (s.acls.listFor? .schema right).or (m.aclFor? right)

def Table.aclFor? (m : Model) (t : Table) (right : Right) :
    Option (List String) :=
  (t.acls.listFor? .table right).or
    ((m.schemaOf? t.schema).bind fun s => s.aclFor? m right)

def Column.aclFor? (m : Model) (t : Table) (c : Column) (right : Right) :
    Option (List String) :=
  (c.acls.listFor? .column right).or (t.aclFor? m right)

def Reference.aclFor? (m : Model) (t : Table) (r : Reference) (right : Right) :
    Option (List String) :=
  (r.acls.listFor? .keyReference right).or (t.aclFor? m right)

/-- Whether a requester is in the list of a right that implies the given
one. -/
def listed (aclFor? : Right → Option (List String)) (roles : Roles)
    (right : Right) : Bool :=
  right.sufficient.any fun r =>
    (aclFor? r).any fun members => rolesMatch members roles

/-- The decision of access lists and bindings: allow if a list has the
requester, and otherwise indeterminate if a binding applies. -/
def verdict (aclFor? : Right → Option (List String)) (bindings : Bindings)
    (roles : Roles) (right : Right) : Decision :=
  if listed aclFor? roles right then .allow
  else if (bindings.granting right roles).isEmpty then .deny
  else .indeterminate

end GovernedCatalog
