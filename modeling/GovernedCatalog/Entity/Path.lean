import GovernedCatalog.Ordered.Set
import GovernedCatalog.Sql.Name

/-!
# Names of entities

Tables are named by their schema and name, keys by a table and a set of
columns, and constraints by their schema and name.
-/

namespace GovernedCatalog

structure TablePath where
  schema : String
  table : String
  deriving DecidableEq, Repr

namespace TablePath

def parts (p : TablePath) : List String := [p.schema, p.table]

theorem parts_inj {p q : TablePath} (h : p.parts = q.parts) : p = q := by
  cases p
  cases q
  simpa [parts] using h

instance : Ord TablePath := ⟨compareOn parts⟩

instance : Std.TransOrd TablePath :=
  inferInstanceAs (Std.TransCmp (compareOn parts))

instance : Std.LawfulEqOrd TablePath where
  compare_self := Std.ReflOrd.compare_self (α := List String)
  eq_of_compare h :=
    parts_inj (Std.LawfulEqOrd.eq_of_compare (α := List String) h)

/-- The path in messages. -/
def display (p : TablePath) : String := p.schema ++ ":" ++ p.table

def sql (p : TablePath) : String := Sql.qualified p.schema p.table

end TablePath

/-- A set of columns of one table. -/
abbrev ColumnSet := SortedSet String

def ColumnSet.display (s : ColumnSet) : String :=
  "(" ++ Text.join "," s.elems ++ ")"

structure ConstraintName where
  schema : String
  name : String
  deriving DecidableEq, Repr

namespace ConstraintName

def parts (c : ConstraintName) : List String := [c.schema, c.name]

theorem parts_inj {c d : ConstraintName} (h : c.parts = d.parts) : c = d := by
  cases c
  cases d
  simpa [parts] using h

instance : Ord ConstraintName := ⟨compareOn parts⟩

instance : Std.TransOrd ConstraintName :=
  inferInstanceAs (Std.TransCmp (compareOn parts))

instance : Std.LawfulEqOrd ConstraintName where
  compare_self := Std.ReflOrd.compare_self (α := List String)
  eq_of_compare h :=
    parts_inj (Std.LawfulEqOrd.eq_of_compare (α := List String) h)

/-- The name in messages. -/
def display (c : ConstraintName) : String := c.schema ++ ":" ++ c.name

end ConstraintName

end GovernedCatalog
