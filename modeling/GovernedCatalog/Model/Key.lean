import GovernedCatalog.Overlay.Annotations
import GovernedCatalog.Overlay.Storage
import GovernedCatalog.Policy.Binding

/-!
# Keys and references

A table has one unique key for each distinct set of key columns, and one foreign
key for each distinct set of referencing columns.  A foreign key holds a
reference for every mapping of its columns to a key.  Constraints of the
database with the same columns are names of the same key or reference.
-/

namespace GovernedCatalog

def ReferentialAction.ofText (s : String) :
    Except Error ReferentialAction :=
  match ofText? s with
  | some action => .ok action
  | none => .error (.unknownAction (spelling s))

structure UniqueKey where
  table : TablePath
  columns : ColumnSet
  constraints : SortedSet ConstraintName
  comment : Option String
  annotations : Annotations
  /-- The references that target this key. -/
  referencedBy : SortedSet ReferenceId

namespace UniqueKey

def fresh (table : TablePath) (columns : ColumnSet) : UniqueKey :=
  ⟨table, columns, {}, none, {}, {}⟩

/-- The key with another name. -/
def addConstraint (key : UniqueKey) (constraint? : Option ConstraintName) :
    UniqueKey :=
  match constraint? with
  | some c => { key with constraints := key.constraints.insert c }
  | none => key

def storageKey (key : UniqueKey) : StorageKey :=
  ⟨.key,
    [("schema_name", .text key.table.schema),
      ("table_name", .text key.table.table),
      ("column_names", .textArray key.columns.elems)]⟩

def bare (key : UniqueKey) : UniqueKey := { key with annotations := {} }

def purge (key : UniqueKey) (systemSchema : String) : List String :=
  key.storageKey.purge systemSchema

end UniqueKey

/-- A reference of a table's rows to the rows of its target. -/
structure Reference where
  source : TablePath
  mapping : ReferenceMap
  onDelete : ReferentialAction
  onUpdate : ReferentialAction
  constraints : SortedSet ConstraintName
  comment : Option String
  annotations : Annotations
  acls : Acls
  bindings : Bindings

namespace Reference

def fresh (source : TablePath) (mapping : ReferenceMap)
    (onDelete onUpdate : ReferentialAction) : Reference :=
  ⟨source, mapping, onDelete, onUpdate, {}, none, {}, {}, {}⟩

def id (r : Reference) : ReferenceId := ⟨r.source, r.mapping⟩

/-- The reference with another name. -/
def addConstraint (r : Reference) (constraint? : Option ConstraintName) :
    Reference :=
  match constraint? with
  | some c => { r with constraints := r.constraints.insert c }
  | none => r

/-- The condition that joins a referencing row to its target. -/
def joinCondition (r : Reference) (sourceAlias targetAlias : String) : String :=
  Text.join " AND "
    (r.mapping.pairs.entries.map fun e =>
      Sql.qualified sourceAlias e.1 ++ " = " ++ Sql.qualified targetAlias e.2)

def storageKey (r : Reference) : StorageKey :=
  ⟨.keyReference,
    [("from_schema_name", .text r.source.schema),
      ("from_table_name", .text r.source.table),
      ("from_column_names", .textArray r.mapping.sources),
      ("to_schema_name", .text r.mapping.target.schema),
      ("to_table_name", .text r.mapping.target.table),
      ("to_column_names", .textArray r.mapping.targets)]⟩

def bare (r : Reference) : Reference :=
  { r with annotations := {}, acls := {}, bindings := {} }

def purge (r : Reference) (systemSchema : String) : List String :=
  r.storageKey.purge systemSchema

end Reference

structure ForeignKey where
  table : TablePath
  columns : ColumnSet
  references : SortedMap ReferenceMap Reference

def ForeignKey.fresh (table : TablePath) (columns : ColumnSet) : ForeignKey :=
  ⟨table, columns, {}⟩

end GovernedCatalog
