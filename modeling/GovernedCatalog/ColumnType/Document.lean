import GovernedCatalog.ColumnType.Canonical
import GovernedCatalog.Json.Decode

/-!
# Types as documents

A document names a type, says whether it is an array or a domain, and contains
the document of the type it is based on.
-/

namespace GovernedCatalog

open Json

inductive TypeDocument where
  | plain (name : String) (isArray isDomain : Bool)
  | based (name : String) (isArray isDomain : Bool) (base : TypeDocument)
  deriving DecidableEq, Repr

namespace TypeDocument

def fieldNames : List String := ["typename", "is_array", "is_domain", "base_type"]

def ofJson? (j : Json) : Option TypeDocument :=
  match hfields : recordFields fieldNames j with
  | none => none
  | some fields => do
      let name ← fields.required "typename" asString
      let isArray ← fields.withDefault "is_array" false asBool
      let isDomain ← fields.withDefault "is_domain" false asBool
      match hbase : fields "base_type" with
      | none | some .null => return plain name isArray isDomain
      | some base =>
          have := sizeOf_field hfields hbase
          (ofJson? base).map (based name isArray isDomain)
termination_by sizeOf j

/-- False flags and an absent base are left out. -/
def flagFields (isArray isDomain : Bool) : List (String × Json) :=
  (if isArray then [("is_array", .bool true)] else []) ++
    (if isDomain then [("is_domain", .bool true)] else [])

def toJson : TypeDocument → Json
  | plain name isArray isDomain =>
      object (("typename", .str name) :: flagFields isArray isDomain)
  | based name isArray isDomain base =>
      object
        (("typename", .str name) :: ("base_type", base.toJson) ::
          flagFields isArray isDomain)

/-- The type that a client asks for, with canonical names. -/
def build (s : Settings) (existing : Bool) :
    TypeDocument → Except Error ColumnType
  | plain name isArray isDomain => do
      if isArray then throw (.missingBase "Array")
      let name ← s.canonicalType existing name none
      if isDomain then throw (.missingBase "Domain")
      return .scalar name
  | based name isArray isDomain base => do
      if isArray then return .array (← base.build s existing)
      let name ← s.canonicalType existing name none
      if isDomain then return .domain name (← base.build s existing)
      return .scalar name

end TypeDocument

namespace ColumnType

def document : ColumnType → TypeDocument
  | scalar name => .plain name false false
  | array base => .based (array base).name true false base.document
  | domain name base => .based name false true base.document

/-- The type that a document describes, with the names as they are. -/
def ofDocument? : TypeDocument → Option ColumnType
  | .plain name isArray isDomain =>
      if isArray || isDomain then none else some (scalar name)
  | .based name isArray isDomain base => do
      let base ← ofDocument? base
      if isArray then return array base
      else if isDomain then return domain name base
      else return scalar name

def toJson (t : ColumnType) : Json := t.document.toJson

def ofJson? (j : Json) : Option ColumnType :=
  (TypeDocument.ofJson? j).bind ofDocument?

end ColumnType

end GovernedCatalog
