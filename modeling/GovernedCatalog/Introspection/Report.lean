import GovernedCatalog.Introspection.Overlay
import GovernedCatalog.Introspection.Structure
import GovernedCatalog.Model.Definition

/-!
# Introspection

An introspection builds the model of a database and reports what it had to leave
out.  It fails as a whole or not at all.  At its end the system schema is taken
out of the visible ones, and the value map is created if it is missing.
-/

namespace GovernedCatalog

/-- What an introspection left out or repaired. -/
structure Report where
  skipped : Introspection.Skipped
  /-- Columns whose default is no constant. -/
  droppedDefaults : List String
  valueMapCreated : Bool
  deriving DecidableEq, Repr

namespace Report

/-- The fields of the report in their order. -/
def fields (r : Report) : List (String × Json) :=
  [("skipped_annotations", .int r.skipped.annotations),
    ("skipped_acls", .int r.skipped.acls),
    ("skipped_bindings", .int r.skipped.bindings),
    ("dropped_defaults", Json.strings r.droppedDefaults),
    ("value_map_created", .bool r.valueMapCreated)]

end Report

structure Introspection where
  model : Model
  report : Report
  /-- The statements that were executed. -/
  executed : List String

namespace Introspection

/-- The value map's statements, if it is missing and to be created. -/
def valueMapStatements (settings : Settings) (m : Model) : List String :=
  if m.systemSchema.tables.contains ValueMap.tableName ||
      !settings.introspection.createMissingValueMap then []
  else ValueMap.rebuild m true

/-- The model with an empty value map in its system schema. -/
def addValueMap (m : Model) : Except Error Model :=
  (m.systemSchema.addTable (ValueMap.table m.systemSchema.name)).map fun s =>
    { m with systemSchema := s }

def run (reader : Reader) (settings : Settings) :
    Except Error Introspection := do
  let (base, dropped) ← readStructure reader settings
  let p ← attachAll reader settings base
  let m := (p.model.installSystemSchema settings.naming.systemSchema).2
  let statements := valueMapStatements settings m
  if statements.isEmpty then return ⟨m, ⟨p.skipped, dropped, false⟩, []⟩
  statements.forM reader.execute
  let m ← addValueMap m
  return ⟨m, ⟨p.skipped, dropped, true⟩, statements⟩

end Introspection

end GovernedCatalog
