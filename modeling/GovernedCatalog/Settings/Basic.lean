import GovernedCatalog.Error
import GovernedCatalog.Pattern.Reader

/-!
# Settings

What an operator chooses for a catalog.  Settings are usable if the system
schema has a name, names may be long enough to be told apart, and every pattern
for type names is one.
-/

namespace GovernedCatalog

/-! ## Policies of column types

A policy lists the canonical names of the accepted types and, for each, other
spellings: literal ones and patterns.  A canonical name always stands for
itself; of several types with a matching spelling the first in name order wins. -/

structure TypeSpellings where
  aliases : List String
  patterns : List String
  deriving DecidableEq, Repr

namespace TypeSpellings

def none : TypeSpellings := ⟨[], []⟩

def ofAliases (aliases : List String) : TypeSpellings := ⟨aliases, []⟩

/-- Whether a pattern's text is a pattern that occurs in the spelling. -/
def patternMatches (spelling pattern : String) : Bool :=
  match Pattern.ofText? pattern with
  | some p => p.occursIn spelling
  | Option.none => false

def accepts (s : TypeSpellings) (spelling : String) : Bool :=
  s.aliases.contains spelling || s.patterns.any (patternMatches spelling)

/-- Whether every pattern's text is a pattern. -/
def wellFormed (s : TypeSpellings) : Bool :=
  s.patterns.all fun pattern => (Pattern.ofText? pattern).isSome

end TypeSpellings

structure TypePolicy where
  types : SortedMap String TypeSpellings
  deriving DecidableEq

namespace TypePolicy

/-- The canonical name of the type that a spelling stands for. -/
def canonical? (policy : TypePolicy) (spelling : String) : Option String :=
  if policy.types.contains spelling then some spelling
  else (policy.types.entries.find? fun e => e.2.accepts spelling).map (·.1)

/-- The first type with a malformed pattern. -/
def malformed? (policy : TypePolicy) : Option String :=
  (policy.types.entries.find? fun e => !e.2.wellFormed).map (·.1)

/-- The types of new columns. -/
def standard : TypePolicy := ⟨.ofList
  [("boolean", .ofAliases ["bool"]),
    ("date", .none),
    ("float4", .ofAliases ["real"]),
    ("float8", .ofAliases ["double precision"]),
    ("int2", .ofAliases ["smallint"]),
    ("int4", .ofAliases ["integer", "int"]),
    ("int8", .ofAliases ["bigint"]),
    ("interval", .none),
    ("jsonb", .none),
    ("serial2", .ofAliases ["smallserial"]),
    ("serial4", .ofAliases ["serial"]),
    ("serial8", .ofAliases ["bigserial"]),
    ("text", .ofAliases ["character varying"]),
    ("timestamptz", .ofAliases ["timestamp with time zone"]),
    ("uuid", .none)]⟩

/-- The types accepted only in columns that already exist. -/
def existing : TypePolicy := ⟨.ofList
  [("json", .none),
    ("tsvector", .none),
    ("text",
      ⟨["char", "bpchar", "varchar"],
        ["^(text|character)( +varying)?( *[(][0-9]+[)])?$"]⟩),
    ("timestamp", .ofAliases ["timestamp without time zone"])]⟩

end TypePolicy

/-! ## The settings -/

structure NamingSettings where
  /-- The schema that holds stored annotations and policies. -/
  systemSchema : String
  /-- Schemas of the database that are no part of the model. -/
  excludedSchemas : List String
  /-- The longest name, in bytes. -/
  maxNameLength : Nat
  deriving DecidableEq, Repr

def NamingSettings.standard : NamingSettings :=
  ⟨"_ermrest", ["pg_catalog", "information_schema", "pg_toast"], 63⟩

structure IntrospectionSettings where
  /-- Whether a missing value map is created. -/
  createMissingValueMap : Bool
  /-- Whether stored policies are loaded along with annotations. -/
  loadPolicy : Bool
  deriving DecidableEq, Repr

def IntrospectionSettings.standard : IntrospectionSettings := ⟨true, true⟩

structure LoggingSettings where
  level : String
  json : Bool
  deriving DecidableEq, Repr

def LoggingSettings.standard : LoggingSettings := ⟨"info", false⟩

structure Settings where
  naming : NamingSettings
  introspection : IntrospectionSettings
  /-- The types of all columns. -/
  columnTypes : TypePolicy
  /-- Further types of columns that already exist. -/
  existingColumnTypes : TypePolicy
  logging : LoggingSettings
  deriving DecidableEq

namespace Settings

def standard : Settings :=
  ⟨.standard, .standard, .standard, .existing, .standard⟩

instance : Inhabited Settings := ⟨standard⟩

def leastNameLimit : Nat := 16

/-- The settings, if they are usable. -/
def validate (s : Settings) : Except Error Unit :=
  if s.naming.systemSchema.isEmpty then .error .emptySystemSchema
  else if s.naming.maxNameLength < leastNameLimit then
    .error (.nameLimitTooSmall s.naming.maxNameLength)
  else
    match s.columnTypes.malformed?.or s.existingColumnTypes.malformed? with
    | some type => .error (.badPattern type)
    | none => .ok ()

end Settings

end GovernedCatalog
