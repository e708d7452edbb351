import GovernedCatalog.Entity.Reference
import GovernedCatalog.Json.Printer
import GovernedCatalog.Policy.Right
import GovernedCatalog.Sql.Name

/-!
# Errors

An error is its cause.  Each cause belongs to a kind, which fixes the code and
the status that a client sees, and has one wording.
-/

namespace GovernedCatalog

inductive ErrorKind where
  | notFound
  | modelConflict
  | dataConflict
  | badData
  | introspection
  | inconsistent
  | unavailable
  | configuration
  | inputOutput
  | jsonText
  | tomlText
  deriving DecidableEq, Repr

namespace ErrorKind

def all : List ErrorKind :=
  [notFound, modelConflict, dataConflict, badData, introspection, inconsistent,
    unavailable, configuration, inputOutput, jsonText, tomlText]

def code : ErrorKind → String
  | notFound => "not_found"
  | modelConflict => "conflict_model"
  | dataConflict => "conflict_data"
  | badData => "bad_data"
  | introspection => "introspection_error"
  | inconsistent => "structural_inconsistency"
  | unavailable => "backend_unavailable"
  | configuration => "config_error"
  | inputOutput => "io_error"
  | jsonText => "json_error"
  | tomlText => "toml_error"

/-- The status of a response that reports the error. -/
def status : ErrorKind → Nat
  | badData => 400
  | jsonText => 400
  | notFound => 404
  | modelConflict => 409
  | dataConflict => 409
  | introspection => 500
  | inconsistent => 500
  | configuration => 500
  | inputOutput => 500
  | tomlText => 500
  | unavailable => 503

/-- Only a lost backend may be back on the next attempt. -/
def retryable (kind : ErrorKind) : Bool := kind == unavailable

/-- The beginning of every message of the kind. -/
def label : ErrorKind → String
  | notFound => "Not found: "
  | modelConflict => "Model conflict: "
  | dataConflict => "Data conflict: "
  | badData => "Bad data: "
  | introspection => "Introspection failed: "
  | inconsistent => "Structural inconsistency: "
  | unavailable => "Backend unavailable: "
  | configuration => "Configuration error: "
  | inputOutput => "IO error: "
  | jsonText => "JSON error: "
  | tomlText => "TOML error: "

end ErrorKind

/-- Why a text is not one SQL expression. -/
inductive ClauseFault where
  | malformed
  | trailingInput
  deriving DecidableEq, Repr

/-- The side of a table on which a reference is followed. -/
inductive Direction where
  | outbound
  | inbound
  deriving DecidableEq, Repr

inductive Error where
  -- Look-ups.
  | unknownRight (name : String)
  | annotationMissing (uri : String)
  | noSchema (schema : String)
  | noTableIn (table schema : String)
  | noTable (table : String)
  | noColumn (column : String) (table : TablePath)
  | noKey (columns : ColumnSet) (table : TablePath)
  | noForeignKey (columns : ColumnSet) (table : TablePath)
  | noReference (id : ReferenceId)
  | hiddenTable (table : TablePath)
  | hiddenColumn (column : String) (table : TablePath)
  -- Conflicts with the model.
  | noPhysicalColumn (column : String) (table : TablePath)
  | derivedColumn
  | columnExists (column : String) (table : TablePath)
  | tableExists (table schema : String)
  | reservedSchema (schema : String)
  | schemaExists (schema : String)
  | ambiguousTable (table : String)
  | notAKey (columns : ColumnSet) (table : TablePath)
  | schemaMismatch (found expected : String)
  | noKeyColumn (column : String) (table : TablePath)
  | invalidClause (clause : String) (fault : ClauseFault)
  | noPathTable (table : TablePath)
  | noPathColumn (column : String) (table : TablePath)
  | noPathReference (direction : Direction) (constraint : ConstraintName)
      (table : TablePath)
  | brokenInbound (cause : Error)
  | selectDeniedOnTable (table : TablePath)
  | selectDeniedOnColumn (column : String) (table : TablePath)
  | nothingSelectable (table : TablePath)
  -- Conflicts with the data.
  | unsupportedType (spelling : String)
  -- Bad data.
  | nameTooLong (what name : String)
  | invalidLiteral (type : String) (value : Json)
  | invalidDefault (type raw : String)
  | missingBase (what : String)
  | missingField (what field : String)
  | unsupportedRight (right : Right) (kind : AclKind)
  | pathWithoutColumn
  | bindingWithoutTypes
  | unsupportedBindingType (right : Right) (kind : AclKind)
  | bindingNotOneSource
  | bindingWithoutSource
  | columnInsidePath (column : String)
  | patternNotText
  | unsupportedOperator (operator : String)
  | invalidMapping (target : TablePath) (fault : MappingFault)
  | unknownAction (spelling : String)
  | unknownTableKind (spelling : String)
  | unequalColumnLists
  | scatteredTargets
  | foreignSources
  -- Inconsistent catalogs.
  | untypedColumn (column : String) (table : TablePath)
  | untypedElement
  | unknownRule (rule : String)
  | danglingTable (constraint : ConstraintName) (table : TablePath)
  | danglingColumn (constraint : ConstraintName) (table : TablePath)
      (column : String)
  | unequalMapping (constraint : ConstraintName) (sources targets : Nat)
  | targetNotAKey (constraint : ConstraintName) (table : TablePath)
      (columns : ColumnSet)
  | brokenMapping (constraint : ConstraintName) (cause : Error)
  -- Configuration and the world outside.
  | emptySystemSchema
  | nameLimitTooSmall (limit : Nat)
  | badPattern (type : String)
  | unreadableDump
  | backendLost (report : String)
  | malformedJson
  | malformedToml

def Direction.name : Direction → String
  | .outbound => "outbound"
  | .inbound => "inbound"

def ClauseFault.detail : ClauseFault → String
  | .malformed => "syntax"
  | .trailingInput => "trailing input"

namespace Error

def kind : Error → ErrorKind
  | unknownRight _ | annotationMissing _ | noSchema _ | noTableIn _ _ | noTable _
  | noColumn _ _ | noKey _ _ | noForeignKey _ _ | noReference _
  | hiddenTable _ | hiddenColumn _ _ => .notFound
  | noPhysicalColumn _ _ | derivedColumn | columnExists _ _ | tableExists _ _
  | reservedSchema _ | schemaExists _ | ambiguousTable _ | notAKey _ _
  | schemaMismatch _ _ | noKeyColumn _ _ | invalidClause _ _ | noPathTable _
  | noPathColumn _ _ | noPathReference _ _ _ | brokenInbound _
  | selectDeniedOnTable _ | selectDeniedOnColumn _ _
  | nothingSelectable _ => .modelConflict
  | unsupportedType _ => .dataConflict
  | nameTooLong _ _ | invalidLiteral _ _ | invalidDefault _ _ | missingBase _
  | missingField _ _ | unsupportedRight _ _ | pathWithoutColumn
  | bindingWithoutTypes | unsupportedBindingType _ _ | bindingNotOneSource
  | bindingWithoutSource | columnInsidePath _ | patternNotText
  | unsupportedOperator _ | invalidMapping _ _ | unknownAction _
  | unknownTableKind _ | unequalColumnLists | scatteredTargets
  | foreignSources => .badData
  | untypedColumn _ _ | untypedElement | unknownRule _ | danglingTable _ _
  | danglingColumn _ _ _ | unequalMapping _ _ _ | targetNotAKey _ _ _
  | brokenMapping _ _ => .inconsistent
  | emptySystemSchema | nameLimitTooSmall _ | badPattern _ => .configuration
  | unreadableDump => .introspection
  | backendLost _ => .unavailable
  | malformedJson => .jsonText
  | malformedToml => .tomlText

/-- The mapping fault in messages. -/
def mappingDetail (target : TablePath) : MappingFault → String
  | .noColumns => "Foreign key reference maps no columns"
  | .repeatedColumn =>
      "Foreign key reference to " ++ target.display ++
        " repeats a referencing column"

/-- What happened, without the kind's label. -/
def detail : Error → String
  | unknownRight name => "ACL " ++ name
  | annotationMissing uri => "annotation \"" ++ uri ++ "\""
  | noSchema schema => "schema " ++ schema
  | noTableIn table schema => "table " ++ table ++ " in schema " ++ schema
  | noTable table => "table " ++ table
  | noColumn column table =>
      "column " ++ column ++ " in table " ++ table.display
  | noKey columns table =>
      "key " ++ columns.display ++ " in table " ++ table.display
  | noForeignKey columns table =>
      "foreign key " ++ columns.display ++ " in table " ++ table.display
  | noReference id => "foreign key reference " ++ id.display
  | hiddenTable table => "Table " ++ table.display
  | hiddenColumn column table => "Column " ++ table.display ++ ":" ++ column
  | noPhysicalColumn column table =>
      "Column " ++ column ++ " of " ++ table.display ++
        " has no physical definition"
  | derivedColumn => "Full-text columns are derived, not stored"
  | columnExists column table =>
      "Column " ++ column ++ " already exists in table " ++ table.display
  | tableExists table schema =>
      "Table " ++ table ++ " already exists in schema " ++ schema
  | reservedSchema schema =>
      "Requested schema " ++ schema ++ " is a reserved schema name"
  | schemaExists schema => "Requested schema " ++ schema ++ " already exists"
  | ambiguousTable table => "Table name " ++ table ++ " is ambiguous"
  | notAKey columns table =>
      "Referenced columns " ++ columns.display ++ " of " ++ table.display ++
        " are not a key"
  | schemaMismatch found expected =>
      "Table document schema " ++ found ++ " does not match " ++ expected
  | noKeyColumn column table =>
      "Key column " ++ column ++ " does not exist in table " ++ table.display
  | invalidClause clause fault =>
      "Invalid ACL binding clause " ++ Text.shown clause ++ ": " ++
        fault.detail
  | noPathTable table =>
      "Projection path table " ++ table.display ++ " does not exist"
  | noPathColumn column table =>
      "Projection column " ++ column ++ " does not exist in " ++ table.display
  | noPathReference direction constraint table =>
      "No " ++ direction.name ++ " foreign key " ++ constraint.display ++
        " from " ++ table.display
  | brokenInbound cause => cause.kind.label ++ cause.detail
  | selectDeniedOnTable table => "Select denied on table " ++ table.display
  | selectDeniedOnColumn column table =>
      "Select denied on column " ++ table.display ++ ":" ++ column
  | nothingSelectable table => "No selectable columns in " ++ table.display
  | unsupportedType spelling => "Unsupported type \"" ++ spelling ++ "\""
  | nameTooLong what name =>
      what ++ " name \"" ++ name ++ "\" exceeds " ++
        toString Sql.maxNameBytes ++ " bytes"
  | invalidLiteral type value =>
      "Invalid " ++ type ++ ": \"" ++ value.write ++ "\""
  | invalidDefault type raw => "Invalid " ++ type ++ " default: " ++ raw
  | missingBase what => what ++ " type document missing base_type"
  | missingField what field =>
      what ++ " document missing required field \"" ++ field ++ "\""
  | unsupportedRight right kind =>
      "ACL name " ++ right.name ++ " not supported on " ++ kind.name
  | pathWithoutColumn => "Projection path must end with a column name"
  | bindingWithoutTypes => "ACL binding requires at least one type"
  | unsupportedBindingType right kind =>
      "ACL binding type " ++ right.name ++ " not supported on " ++ kind.name
  | bindingNotOneSource =>
      "ACL binding requires exactly one of projection or clause"
  | bindingWithoutSource => "ACL binding has neither projection nor clause"
  | columnInsidePath column =>
      "Column " ++ column ++
        " may only appear at the end of a projection path"
  | patternNotText => "Regular expression filter operand must be a string"
  | unsupportedOperator operator =>
      "Unsupported filter operator " ++ operator
  | invalidMapping target fault => mappingDetail target fault
  | unknownAction spelling => "Unknown referential action " ++ spelling
  | unknownTableKind spelling => "Unknown table kind " ++ spelling
  | unequalColumnLists =>
      "Foreign key and referenced column lists must be non-empty and equal " ++
        "length"
  | scatteredTargets => "Referenced columns must belong to one table"
  | foreignSources => "Foreign key columns must belong to the new table"
  | untypedColumn column table =>
      "column " ++ table.display ++ ":" ++ column ++ " has no type"
  | untypedElement => "array column without element type"
  | unknownRule rule => "unknown referential action " ++ rule
  | danglingTable constraint table =>
      "constraint " ++ constraint.display ++ " references missing table " ++
        table.display
  | danglingColumn constraint table column =>
      "constraint " ++ constraint.display ++ " references missing column " ++
        table.display ++ ":" ++ column
  | unequalMapping constraint sources targets =>
      "foreign key " ++ constraint.display ++ " maps " ++ toString sources ++
        " columns to " ++ toString targets
  | targetNotAKey constraint table columns =>
      "foreign key " ++ constraint.display ++ " references " ++
        table.display ++ columns.display ++ ", which is not a key"
  | brokenMapping constraint cause =>
      "foreign key " ++ constraint.name ++ ": " ++ cause.kind.label ++ cause.detail
  | emptySystemSchema => "catalog.system_schema must not be empty"
  | nameLimitTooSmall limit =>
      "catalog.max_identifier_length " ++ toString limit ++ " is too small"
  | badPattern type => "bad type pattern for " ++ type
  | unreadableDump => "cannot read catalog dump"
  | backendLost report => report
  | malformedJson => "malformed text"
  | malformedToml => "malformed text"

/-- The whole message. -/
def message (e : Error) : String := e.kind.label ++ e.detail

end Error

/-- The value of a document, if it could be read. -/
def readable : Option α → Except Error α
  | some a => .ok a
  | none => .error .malformedJson

end GovernedCatalog
