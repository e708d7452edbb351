import GovernedCatalog.Entity.Path
import GovernedCatalog.Ordered.Map
import GovernedCatalog.Text.Character

/-!
# References between tables

A reference maps columns of one table to columns of a target table.  The
mapping is keyed by the referencing column, so equal mappings are equal values
no matter the order in which their pairs were listed.
-/

namespace GovernedCatalog

/-- Why a list of column pairs is not a mapping. -/
inductive MappingFault where
  | noColumns
  | repeatedColumn
  deriving DecidableEq, Repr

structure ReferenceMap where
  target : TablePath
  pairs : SortedMap String String
  nonempty : pairs.entries ≠ []

namespace ReferenceMap

@[ext] theorem ext {m n : ReferenceMap} (target : m.target = n.target)
    (pairs : m.pairs = n.pairs) : m = n := by
  cases m
  cases n
  cases target
  cases pairs
  rfl

instance : DecidableEq ReferenceMap := fun m n =>
  decidable_of_iff (m.target = n.target ∧ m.pairs = n.pairs)
    ⟨fun h => ext h.1 h.2, fun h => by cases h; exact ⟨rfl, rfl⟩⟩

/-- The mapping listed by `pairs`, unless it is empty or maps a column
twice. -/
def ofPairs (target : TablePath) (pairs : List (String × String)) :
    Except MappingFault ReferenceMap :=
  if pairs.isEmpty then .error .noColumns
  else
    let m := SortedMap.ofList pairs
    if h : m.size = pairs.length ∧ m.entries ≠ [] then .ok ⟨target, m, h.2⟩
    else .error .repeatedColumn

def sources (m : ReferenceMap) : List String := m.pairs.keys

def targets (m : ReferenceMap) : List String := m.pairs.values

def fromColumns (m : ReferenceMap) : ColumnSet := .ofList m.sources

def toColumns (m : ReferenceMap) : ColumnSet := .ofList m.targets

/-- The column that a referencing column is mapped to. -/
def targetOf? (m : ReferenceMap) (source : String) : Option String :=
  m.pairs.get? source

/-- The texts by which mappings are ordered. -/
def parts (m : ReferenceMap) : List (List String) :=
  m.target.parts :: m.pairs.entries.map fun e => [e.1, e.2]

theorem parts_inj {m n : ReferenceMap} (h : m.parts = n.parts) : m = n := by
  have hcons := List.cons.inj h
  refine ext (TablePath.parts_inj hcons.1) (SortedMap.ext ?_)
  refine List.map_inj_right (f := fun e : String × String => [e.1, e.2]) ?_
    |>.1 hcons.2
  intro a b hab
  cases a
  cases b
  simpa using hab

instance : Ord ReferenceMap := ⟨compareOn parts⟩

instance : Std.TransOrd ReferenceMap :=
  inferInstanceAs (Std.TransCmp (compareOn parts))

instance : Std.LawfulEqOrd ReferenceMap where
  compare_self := Std.ReflOrd.compare_self (α := List (List String))
  eq_of_compare h :=
    parts_inj (Std.LawfulEqOrd.eq_of_compare (α := List (List String)) h)

end ReferenceMap

/-- The identity of a reference: its source table and its mapping. -/
structure ReferenceId where
  source : TablePath
  mapping : ReferenceMap
  deriving DecidableEq

namespace ReferenceId

def parts (id : ReferenceId) : List (List String) :=
  id.source.parts :: id.mapping.parts

theorem parts_inj {i j : ReferenceId} (h : i.parts = j.parts) : i = j := by
  have hcons := List.cons.inj h
  cases i
  cases j
  cases TablePath.parts_inj hcons.1
  cases ReferenceMap.parts_inj hcons.2
  rfl

instance : Ord ReferenceId := ⟨compareOn parts⟩

instance : Std.TransOrd ReferenceId :=
  inferInstanceAs (Std.TransCmp (compareOn parts))

instance : Std.LawfulEqOrd ReferenceId where
  compare_self := Std.ReflOrd.compare_self (α := List (List String))
  eq_of_compare h :=
    parts_inj (Std.LawfulEqOrd.eq_of_compare (α := List (List String)) h)

def fromColumns (id : ReferenceId) : ColumnSet := id.mapping.fromColumns

/-- The reference in messages. -/
def display (id : ReferenceId) : String :=
  id.source.display ++ "(" ++ Text.join "," id.mapping.sources ++ ") -> " ++
    id.mapping.target.display ++ "(" ++ Text.join "," id.mapping.targets ++ ")"

end ReferenceId

/-- What the database does to a referencing row when its target changes. -/
inductive ReferentialAction where
  | noAction
  | restrict
  | cascade
  | setNull
  | setDefault
  deriving DecidableEq, Repr

namespace ReferentialAction

def sql : ReferentialAction → String
  | noAction => "NO ACTION"
  | restrict => "RESTRICT"
  | cascade => "CASCADE"
  | setNull => "SET NULL"
  | setDefault => "SET DEFAULT"

/-- The spelling that is looked up: without blanks around it, in capitals. -/
def spelling (s : String) : String :=
  String.ofList ((Text.trim s.toList).map Char.toUpper)

/-- One-letter codes and the words of SQL. -/
def ofSpelling? (s : String) : Option ReferentialAction :=
  match s with
  | "A" => some noAction
  | "NO ACTION" => some noAction
  | "R" => some restrict
  | "RESTRICT" => some restrict
  | "C" => some cascade
  | "CASCADE" => some cascade
  | "N" => some setNull
  | "SET NULL" => some setNull
  | "D" => some setDefault
  | "SET DEFAULT" => some setDefault
  | _ => none

def ofText? (s : String) : Option ReferentialAction := ofSpelling? (spelling s)

end ReferentialAction

/-! ## Addresses of entities

The names by which one entity is told from all others of a model. -/

inductive Address where
  | catalog
  | schema (name : String)
  | table (path : TablePath)
  | column (table : TablePath) (name : String)
  | key (table : TablePath) (columns : ColumnSet)
  | foreignKey (table : TablePath) (columns : ColumnSet)
  | reference (id : ReferenceId)
  deriving DecidableEq

end GovernedCatalog
