import GovernedCatalog.Guard.Path
import GovernedCatalog.Sql.Expression

/-!
# Compiled bindings

A binding compiles to a condition in parentheses.  A raw clause gets the name of
the governed row in place of its placeholder and must then be one expression.
-/

namespace GovernedCatalog.Guard

/-- What stands for the governed row in raw clauses. -/
def placeholder : String := "\x7balias\x7d"

/-- The governed row in SQL: its alias, or the name of its table. -/
def rowReference (t : Table) (alias? : Option String) : String :=
  match alias? with
  | some name => if name.isEmpty then t.path.sql else Sql.identifier name
  | none => t.path.sql

/-- A raw clause about the governed row. -/
def substitute (clause outer : String) : String :=
  String.ofList
    (Text.replaceAll placeholder.toList outer.toList clause.toList)

/-- The condition of a binding on the rows of a table. -/
def compileBinding (m : Model) (roles : Roles) (t : Table)
    (alias? : Option String) (b : Binding) : Except Error String := do
  let outer := rowReference t alias?
  match b.clause, b.projection with
  | some clause, _ =>
      let sql := substitute clause outer
      Sql.checkClause sql
      return "(" ++ sql ++ ")"
  | none, some projection =>
      let condition ← pathCondition m roles t projection b.projectionType
      return condition.sql outer
  | none, none => throw .bindingWithoutSource

/-- The conditions of the bindings that grant a right. -/
def grantingConditions (m : Model) (roles : Roles) (t : Table)
    (bindings : Bindings) (alias? : Option String) (right : Right) :
    Except Error (List String) :=
  (bindings.granting right roles).mapM (compileBinding m roles t alias?)

end GovernedCatalog.Guard
