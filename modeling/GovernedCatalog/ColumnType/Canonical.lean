import GovernedCatalog.ColumnType.Default
import GovernedCatalog.Settings.Basic

/-!
# Canonical type names

A spelling is looked up in the policy of new columns and, for a column that
already exists, in the policy of existing columns after it.  An integer column
fed by a sequence has the serial type of its size.
-/

namespace GovernedCatalog

/-- The serial type of an integer type's size. -/
def serialName? (name : String) : Option String :=
  match name with
  | "int2" | "smallint" => some "serial2"
  | "int4" | "integer" | "int" => some "serial4"
  | "int8" | "bigint" => some "serial8"
  | _ => none

namespace TypePolicy

/-- The canonical name of a column's type, given the column's default. -/
def columnType? (policy : TypePolicy) (spelling : String)
    (default? : Option String) : Option String := do
  let name ← policy.canonical? spelling
  if default?.any isSequenceDefault then
    match serialName? name with
    | some serial => policy.canonical? serial
    | none => some name
  else some name

end TypePolicy

namespace Settings

/-- The canonical name of a column's type; `existing` columns have more types
than new ones. -/
def canonicalType (s : Settings) (existing : Bool) (spelling : String)
    (default? : Option String) : Except Error String :=
  let found :=
    match s.columnTypes.columnType? spelling default? with
    | some name => some name
    | none =>
        if existing then s.existingColumnTypes.columnType? spelling default?
        else none
  match found with
  | some name => .ok name
  | none => .error (.unsupportedType spelling)

end Settings

end GovernedCatalog
