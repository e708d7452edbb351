import GovernedCatalog.Entity.Path
import GovernedCatalog.Policy.AccessList

/-!
# Conditions on rows

The condition of a projection path joins the governed row to rows of other
tables and compares columns of these rows.  The joined rows are numbered in the
order of the path, and their names in SQL follow from the numbers.
-/

namespace GovernedCatalog.Guard

inductive RowName where
  | governed
  | joined (index : Nat)
  deriving DecidableEq, Repr

/-- The row in SQL, where `outer` stands for the governed row. -/
def RowName.sql (outer : String) : RowName → String
  | governed => outer
  | joined index => Sql.identifier ("_dyn" ++ toString index)

/-- A column of a row. -/
structure Field where
  row : RowName
  column : String
  deriving DecidableEq, Repr

def Field.sql (outer : String) (f : Field) : String :=
  f.row.sql outer ++ "." ++ Sql.identifier f.column

inductive Comparison where
  | equal
  | less
  | lessOrEqual
  | greater
  | greaterOrEqual
  deriving DecidableEq, Repr

namespace Comparison

def sql : Comparison → String
  | equal => "="
  | less => "<"
  | lessOrEqual => "<="
  | greater => ">"
  | greaterOrEqual => ">="

/-- The comparison that a filter's operator names. -/
def ofOperator? : String → Option Comparison
  | "=" => some equal
  | "::lt::" => some less
  | "::leq::" => some lessOrEqual
  | "::gt::" => some greater
  | "::geq::" => some greaterOrEqual
  | _ => none

end Comparison

inductive Condition where
  /-- Two fields have the same value. -/
  | join (left right : Field)
  | compare (field : Field) (comparison : Comparison) (constant : String)
  | isNull (field : Field)
  | isNotNull (field : Field)
  /-- The field as a text matches a pattern. -/
  | fits (field : Field) (caseSensitive : Bool) (pattern : String)
  /-- The field is one of the roles. -/
  | isRole (field : Field) (roles : Roles)
  /-- The field is an array with one of the roles. -/
  | hasRole (field : Field) (roles : Roles)

/-- The roles as an SQL array. -/
def rolesSql (roles : Roles) : String := Sql.textArray roles.elems

def Condition.sql (outer : String) : Condition → String
  | join left right => left.sql outer ++ " = " ++ right.sql outer
  | compare field comparison constant =>
      field.sql outer ++ " " ++ comparison.sql ++ " " ++ constant
  | isNull field => field.sql outer ++ " IS NULL"
  | isNotNull field => field.sql outer ++ " IS NOT NULL"
  | fits field caseSensitive pattern =>
      field.sql outer ++ "::text " ++ (if caseSensitive then "~" else "~*") ++
        " " ++ Sql.literal pattern
  | isRole field roles => field.sql outer ++ " = ANY(" ++ rolesSql roles ++ ")"
  | hasRole field roles => field.sql outer ++ " && " ++ rolesSql roles

/-- The condition of a path: rows of the joined tables, in order, that satisfy
all conditions. -/
structure PathCondition where
  joined : List TablePath
  conditions : List Condition

namespace PathCondition

/-- The joined tables with their names, which count from `first`. -/
def sources (first : Nat) : List TablePath → List String
  | [] => []
  | table :: rest =>
      (table.sql ++ " AS " ++ (RowName.joined first).sql "") ::
        sources (first + 1) rest

def sql (p : PathCondition) (outer : String) : String :=
  let conditions := Text.join " AND " (p.conditions.map (Condition.sql outer))
  if p.joined.isEmpty then "(" ++ conditions ++ ")"
  else
    "(EXISTS (SELECT 1 FROM " ++ Text.join ", " (sources 1 p.joined) ++
      " WHERE " ++ conditions ++ "))"

end PathCondition

end GovernedCatalog.Guard
