import GovernedCatalog.Decimal.Reading
import GovernedCatalog.Json.Decode
import GovernedCatalog.Settings.Basic
import GovernedCatalog.Toml.Nesting

/-!
# Settings as documents

A document gives some of the settings; a section or field that it leaves out
has its standard value.
-/

namespace GovernedCatalog

open Json

/-- The fields of a section: those of an object, or the items of an array under
the names in order, where items after the last name have no meaning. -/
def sectionFields (names : List String) : Json → Option Fields
  | .arr items => some (field? (names.zip items))
  | j => objectFields names j

def TypeSpellings.ofJson? (j : Json) : Option TypeSpellings := do
  let fields ← sectionFields ["aliases", "regexps"] j
  let aliases ← fields.withDefault "aliases" [] asStrings
  let patterns ← fields.withDefault "regexps" [] asStrings
  return ⟨aliases, patterns⟩

def TypeSpellings.toJson (s : TypeSpellings) : Json :=
  object [("aliases", strings s.aliases), ("regexps", strings s.patterns)]

def TypePolicy.ofJson? (j : Json) : Option TypePolicy :=
  (asMap TypeSpellings.ofJson? j).map TypePolicy.mk

def TypePolicy.toJson (policy : TypePolicy) : Json :=
  ofMap (policy.types.mapValues fun _ s => s.toJson)

/-- A length: a whole number in the range of 64 bits with a sign. -/
def asLength : Json → Option Nat
  | .int n => if 0 ≤ n && Decimal.fitsInt64 n then some n.toNat else none
  | _ => none

def NamingSettings.ofJson? (j : Json) : Option NamingSettings := do
  let std := NamingSettings.standard
  let fields ← sectionFields
    ["system_schema", "excluded_schemas", "max_identifier_length"] j
  let systemSchema ←
    fields.withDefault "system_schema" std.systemSchema asString
  let excludedSchemas ←
    fields.withDefault "excluded_schemas" std.excludedSchemas asStrings
  let maxNameLength ←
    fields.withDefault "max_identifier_length" std.maxNameLength asLength
  return ⟨systemSchema, excludedSchemas, maxNameLength⟩

def NamingSettings.toJson (s : NamingSettings) : Json :=
  object
    [("system_schema", .str s.systemSchema),
      ("excluded_schemas", strings s.excludedSchemas),
      ("max_identifier_length", .int s.maxNameLength)]

def IntrospectionSettings.ofJson? (j : Json) : Option IntrospectionSettings := do
  let std := IntrospectionSettings.standard
  let fields ← sectionFields ["create_missing_value_map", "load_policy"] j
  let create ←
    fields.withDefault "create_missing_value_map" std.createMissingValueMap
      asBool
  let load ← fields.withDefault "load_policy" std.loadPolicy asBool
  return ⟨create, load⟩

def IntrospectionSettings.toJson (s : IntrospectionSettings) : Json :=
  object
    [("create_missing_value_map", .bool s.createMissingValueMap),
      ("load_policy", .bool s.loadPolicy)]

def LoggingSettings.ofJson? (j : Json) : Option LoggingSettings := do
  let std := LoggingSettings.standard
  let fields ← sectionFields ["level", "json"] j
  let level ← fields.withDefault "level" std.level asString
  let json ← fields.withDefault "json" std.json asBool
  return ⟨level, json⟩

def LoggingSettings.toJson (s : LoggingSettings) : Json :=
  object [("level", .str s.level), ("json", .bool s.json)]

namespace Settings

def ofJson? (j : Json) : Option Settings := do
  let fields ← objectFields
    ["catalog", "introspection", "column_types", "column_types_readonly",
      "logging"] j
  let naming ←
    fields.withDefault "catalog" standard.naming NamingSettings.ofJson?
  let introspection ←
    fields.withDefault "introspection" standard.introspection
      IntrospectionSettings.ofJson?
  let columnTypes ←
    fields.withDefault "column_types" standard.columnTypes TypePolicy.ofJson?
  let existingColumnTypes ←
    fields.withDefault "column_types_readonly" standard.existingColumnTypes
      TypePolicy.ofJson?
  let logging ←
    fields.withDefault "logging" standard.logging LoggingSettings.ofJson?
  return ⟨naming, introspection, columnTypes, existingColumnTypes, logging⟩

def toJson (s : Settings) : Json :=
  object
    [("catalog", s.naming.toJson),
      ("introspection", s.introspection.toJson),
      ("column_types", s.columnTypes.toJson),
      ("column_types_readonly", s.existingColumnTypes.toJson),
      ("logging", s.logging.toJson)]

/-- The usable settings of a document; null stands for the standard ones, and a
field of null for one that is left out. -/
def read : Json → Except Error Settings
  | .null => .ok standard
  | j =>
      let document := j.withoutNulls
      if Toml.canHold document then
        match ofJson? document with
        | none => .error .malformedToml
        | some s => s.validate.map fun _ => s
      else .error .malformedToml

end Settings

end GovernedCatalog
