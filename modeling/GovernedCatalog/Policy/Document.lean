import GovernedCatalog.Json.Decode
import GovernedCatalog.Policy.Binding

/-!
# Policies as documents

Access lists are written as lists of roles by right, and bindings as records by
name, where `false` removes a binding.
-/

namespace GovernedCatalog

open Json

namespace Acls

def toJson (acls : Acls) : Json :=
  object (acls.entries.map fun e => (e.1.name, strings e.2))

def ofJson? (j : Json) : Option Acls :=
  (asEntries Right.ofName? asStrings j).map SortedMap.ofList

end Acls

def Direction.ofName? : String → Option Direction
  | "outbound" => some .outbound
  | "inbound" => some .inbound
  | _ => none

namespace ConstraintName

def toJson (c : ConstraintName) : Json := strings [c.schema, c.name]

def ofJson? (j : Json) : Option ConstraintName :=
  (asPair j).map fun (schema, name) => ⟨schema, name⟩

end ConstraintName

namespace PathElement

def toJson : PathElement → Json
  | follow direction constraint =>
      object [(direction.name, constraint.toJson)]
  | filter source operand operator =>
      object
        ([("filter", .str source), ("operand", operand)] ++
          match operator with
          | some op => [("operator", .str op)]
          | none => [])
  | column name => .str name

def followOfJson? (direction : Direction) (j : Json) : Option PathElement := do
  let fields ← objectFields [direction.name] j
  let constraint ← fields.required direction.name ConstraintName.ofJson?
  return follow direction constraint

def filterOfJson? (j : Json) : Option PathElement := do
  let fields ← objectFields ["filter", "operand", "operator"] j
  let source ← fields.required "filter" asString
  let operand ← fields.required "operand" asAny
  let operator ← fields.optional "operator" asString
  return filter source operand operator

/-- The first form that a value has: outbound, inbound, filter or column. -/
def ofJson? (j : Json) : Option PathElement :=
  followOfJson? .outbound j <|> followOfJson? .inbound j <|>
    filterOfJson? j <|> (asString j).map column

end PathElement

namespace Projection

def toJson : Projection → Json
  | column name => .str name
  | path elements => .arr (elements.map PathElement.toJson)

def ofJson? : Json → Option Projection
  | .str name => some (column name)
  | j => (asList PathElement.ofJson? j).map path

end Projection

namespace Binding

def toJson (b : Binding) : Json :=
  object
    ([("types", strings (b.types.map Right.name)),
        ("projection_type", .str b.projectionType.name),
        ("scope_acl", strings b.scope)] ++
      (match b.projection with
        | some p => [("projection", p.toJson)]
        | none => []) ++
      match b.clause with
      | some c => [("clause", .str c)]
      | none => [])

def ofJson? (j : Json) : Option Binding := do
  let fields ← recordFields
    ["types", "projection", "projection_type", "clause", "scope_acl"] j
  let types ← fields.required "types" (asList (asName Right.ofName?))
  let projection ← fields.optional "projection" Projection.ofJson?
  let projectionType ←
    fields.withDefault "projection_type" .acl (asName ProjectionType.ofName?)
  let clause ← fields.optional "clause" asString
  let scope ← fields.withDefault "scope_acl" everyone asStrings
  return ⟨types, projection, projectionType, clause, scope⟩

end Binding

namespace AclBinding

def toJson : AclBinding → Json
  | disabled => .bool false
  | enabled b => b.toJson

def ofJson? : Json → Option AclBinding
  | .bool false => some disabled
  | j => (Binding.ofJson? j).map enabled

end AclBinding

namespace Bindings

def toJson (bindings : Bindings) : Json :=
  ofMap (bindings.mapValues fun _ b => b.toJson)

def ofJson? (j : Json) : Option Bindings := asMap AclBinding.ofJson? j

end Bindings

end GovernedCatalog
