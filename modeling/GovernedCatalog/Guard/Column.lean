import GovernedCatalog.Guard.Binding
import GovernedCatalog.Rights.Summary

/-!
# Guards of columns and rows

A row filter admits the rows that a requester may access.  Inside admitted rows
a column that is more restricted than its table is shown as null unless one of
its own conditions holds.
-/

namespace GovernedCatalog.Guard

/-- Why no guard can be given. -/
inductive Fault where
  | failed (cause : Error)
  /-- The requester is denied the column on every row.  Callers have to leave
  such columns out. -/
  | deniedColumn (right : Right) (column : String) (table : TablePath)

namespace Fault

def message : Fault → String
  | failed cause => cause.message
  | deniedColumn right column table =>
      "policy compiler invoked for " ++ right.name ++ " on denied column " ++
        table.display ++ ":" ++ column

end Fault

/-- The rows that a requester may access. -/
inductive RowFilter where
  | everyRow
  | noRow
  | anyOf (conditions : List String)
  deriving DecidableEq, Repr

def RowFilter.sql : RowFilter → String
  | everyRow => "True"
  | noRow => "False"
  | anyOf conditions => "(" ++ Text.join " OR " conditions ++ ")"

/-- What a requester sees of a column. -/
inductive Shown where
  | always
  | never
  | whenAny (conditions : List String)
  deriving DecidableEq, Repr

/-- The value of a column where it is shown, and null elsewhere. -/
def Shown.sql (c : Column) (alias? : Option String) : Shown → String
  | always => c.sql alias?
  | never => "NULL::" ++ c.type.storageSql
  | whenAny conditions =>
      "CASE WHEN " ++ Text.join " OR " conditions ++ " THEN " ++ c.sql alias? ++
        " ELSE NULL::" ++ c.type.storageSql ++ " END"

/-- The rows on which a requester is denied a column. -/
inductive Denied where
  | always
  | unlessAny (conditions : List String)
  deriving DecidableEq, Repr

/-- A condition that is not known to hold counts as failed. -/
def Denied.sql : Denied → String
  | always => "True"
  | unlessAny conditions =>
      "(" ++
        Text.join " AND "
          (conditions.map fun c => "COALESCE(NOT " ++ c ++ ", True)") ++ ")"

/-- How a column's guard is used. -/
inductive Mode where
  /-- As a value. -/
  | projection
  /-- As a condition that holds where access is denied. -/
  | predicate
  deriving DecidableEq, Repr

/-- The conditions of the column's bindings that grant a right. -/
def columnConditions (model : Model) (roles : Roles) (c : Column)
    (alias? : Option String) (right : Right) : Except Error (List String) :=
  match model.tableOf? c.table with
  | none => .ok []
  | some t =>
      grantingConditions model roles t (t.bindings.overlay c.bindings) alias?
        right

def shown (conditions : List String) : Shown :=
  if conditions.isEmpty then .never else .whenAny conditions

def denied (conditions : List String) : Denied :=
  if conditions.isEmpty then .always else .unlessAny conditions

/-- A column that is allowed on every row needs no check, and its predicate is
this constant. -/
def unchecked : String := "True"

variable {m : Type → Type} [Monad m] (ask : Ask m) (model : Model)
  (roles : Roles)

def compileColumn (c : Column) (alias? : Option String) (mode : Mode)
    (right : Right) : m (Except Fault String) := do
  match ← ask (.column c) right, mode with
  | .deny, _ => return .error (.deniedColumn right c.name c.table)
  | .allow, .projection => return .ok (Shown.always.sql c alias?)
  | .allow, .predicate => return .ok unchecked
  | .indeterminate, .projection =>
      if ← isRestricted ask model c right then
        return (columnConditions model roles c alias? right).map
          (fun conditions => (shown conditions).sql c alias?) |>.mapError .failed
      else return .ok (Shown.always.sql c alias?)
  | .indeterminate, .predicate =>
      return (columnConditions model roles c alias? right).map
        (fun conditions => (denied conditions).sql) |>.mapError .failed

/-- The column's value under the column's name. -/
def selectItem (c : Column) (alias? : Option String) (right : Right) :
    m (Except Fault String) := do
  let value ← compileColumn ask model roles c alias? .projection right
  return value.map fun sql => sql ++ " AS " ++ Sql.identifier c.name

def compileTable (t : Table) (alias? : Option String) (right : Right) :
    m (Except Error String) := do
  match ← ask (.table t) right with
  | .allow => return .ok RowFilter.everyRow.sql
  | .deny => return .ok RowFilter.noRow.sql
  | .indeterminate =>
      return (grantingConditions model roles t t.bindings alias? right).map
        fun conditions =>
          (if conditions.isEmpty then RowFilter.noRow
            else .anyOf conditions).sql

end GovernedCatalog.Guard
