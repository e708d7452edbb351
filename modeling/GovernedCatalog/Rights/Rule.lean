import GovernedCatalog.Model.Entity
import GovernedCatalog.Rights.Inheritance

/-!
# Rules of decision

The rules say which right on which other entity a decision depends on.  A table
is denied if its schema is hidden, and a column if its table is denied; a key
needs the right on all its columns, and a reference needs a visible target.  The
rules are stated for any way to recall earlier decisions, so that deciding
afresh and deciding with a memory are the same rules.
-/

namespace GovernedCatalog

/-- Runs a decision on an entity unless it can be recalled. -/
abbrev Recall (m : Type → Type) :=
  Address → Right → m Decision → m Decision

/-- Decides a right on an entity. -/
abbrev Ask (m : Type → Type) := Entity → Right → m Decision

namespace Rule

variable {m : Type → Type} [Monad m] (known : Recall m) (model : Model)
  (roles : Roles)

def onCatalog (right : Right) : m Decision :=
  known .catalog right (pure (verdict model.aclFor? {} roles right))

def onSchema (s : Schema) (right : Right) : m Decision :=
  known (.schema s.name) right
    (pure (verdict (s.aclFor? model) {} roles right))

def onTable (t : Table) (right : Right) : m Decision :=
  known (.table t.path) right do
    match model.schemaOf? t.schema with
    | none => return .deny
    | some s =>
        if (← onSchema known model roles s .enumerate) = .deny then
          return .deny
        else return verdict (t.aclFor? model) t.bindings roles right

/-- A column has the bindings of its table, replaced by its own of the same
names. -/
def onColumn (c : Column) (right : Right) : m Decision :=
  known (.column c.table c.name) right do
    match model.tableOf? c.table with
    | none => return .deny
    | some t =>
        if (← onTable known model roles t right) = .deny then return .deny
        else
          return verdict (c.aclFor? model t) (t.bindings.overlay c.bindings)
            roles right

/-- The weakest of the decisions on some columns of a table. -/
def onColumns (t : Table) (right : Right) : List String → m Decision
  | [] => return .allow
  | name :: rest => do
      let first ←
        match t.column? name with
        | some c => onColumn known model roles c right
        | none => pure .deny
      return first.and (← onColumns t right rest)

def onKey (key : UniqueKey) (right : Right) : m Decision :=
  known (.key key.table key.columns) right do
    match model.tableOf? key.table with
    | none => return .deny
    | some t => onColumns known model roles t right key.columns.elems

/-- Whether some of the columns is missing from a table or denied; the columns
after the first such one are not looked at. -/
def someDenied (t : Table) (right : Right) : List String → m Bool
  | [] => return false
  | name :: rest => do
      match t.column? name with
      | none => return true
      | some c =>
          if (← onColumn known model roles c right) = .deny then return true
          else someDenied t right rest

def onReference (r : Reference) (right : Right) : m Decision :=
  known (.reference r.id) right do
    match model.referencedKey r.mapping with
    | .error _ => return .deny
    | .ok key =>
        if (← onKey known model roles key .enumerate) = .deny then
          return .deny
        else
          match model.tableOf? r.source with
          | none => return .deny
          | some t =>
              if ← someDenied known model roles t right
                  r.mapping.fromColumns.elems then return .deny
              else return verdict (r.aclFor? model t) r.bindings roles right

/-- The strongest of the decisions on some references. -/
def onReferences (right : Right) : List Reference → m Decision
  | [] => return .deny
  | r :: rest => do
      let first ← onReference known model roles r right
      return first.or (← onReferences right rest)

def onForeignKey (fk : ForeignKey) (right : Right) : m Decision :=
  known (.foreignKey fk.table fk.columns) right do
    match model.tableOf? fk.table with
    | none => return .deny
    | some t =>
        let columns ← onColumns known model roles t right fk.columns.elems
        let references ←
          onReferences known model roles right fk.references.values
        return columns.and references

def decide : Ask m
  | .catalog, right => onCatalog known model roles right
  | .schema s, right => onSchema known model roles s right
  | .table t, right => onTable known model roles t right
  | .column c, right => onColumn known model roles c right
  | .key k, right => onKey known model roles k right
  | .foreignKey fk, right => onForeignKey known model roles fk right
  | .reference r, right => onReference known model roles r right

end Rule

/-- The decision on an entity for a requester with the given roles. -/
def decide (model : Model) (roles : Roles) (entity : Entity) (right : Right) :
    Decision :=
  Id.run (Rule.decide (fun _ _ fresh => fresh) model roles entity right)

end GovernedCatalog
