import GovernedCatalog.Policy.AccessList

/-!
# Row-level bindings

A binding grants rights on the rows that satisfy its condition.  The condition
is a raw clause, or a projection: a column reached from the row along references
whose value names a role of the requester, or is merely not null.
-/

namespace GovernedCatalog

/-- How a projected value authorises a row. -/
inductive ProjectionType where
  /-- The value is a role, or an array of roles, of the requester. -/
  | acl
  /-- The value is not null. -/
  | nonnull
  deriving DecidableEq, Repr

namespace ProjectionType

def name : ProjectionType → String
  | acl => "acl"
  | nonnull => "nonnull"

def ofName? : String → Option ProjectionType
  | "acl" => some acl
  | "nonnull" => some nonnull
  | _ => none

end ProjectionType

inductive PathElement where
  /-- Follows the reference with the given constraint. -/
  | follow (direction : Direction) (constraint : ConstraintName)
  /-- Compares a column of the current table with a constant. -/
  | filter (column : String) (operand : Json) (operator : Option String)
  /-- The projected column. -/
  | column (name : String)

inductive Projection where
  | column (name : String)
  | path (elements : List PathElement)

namespace Projection

/-- The steps of a projection and the column at its end. -/
def split : Projection → Except Error (List PathElement × String)
  | column name => .ok ([], name)
  | path elements =>
      match elements.getLast? with
      | some (.column name) => .ok (elements.dropLast, name)
      | _ => .error .pathWithoutColumn

end Projection

structure Binding where
  types : List Right
  projection : Option Projection
  projectionType : ProjectionType
  /-- A raw condition, in which `alias` between braces stands for the row. -/
  clause : Option String
  /-- The roles to which the binding applies. -/
  scope : List String

namespace Binding

def everyone : List String := ["*"]

/-- Whether the binding grants a right, itself or through one that implies
it. -/
def grants (b : Binding) (right : Right) : Bool := b.types.any right.impliedBy

def inScope (b : Binding) (roles : Roles) : Bool := rolesMatch b.scope roles

/-- Whether the binding has exactly one well-formed source of its condition. -/
def validateSource (b : Binding) : Except Error Unit :=
  match b.projection, b.clause with
  | some projection, none => projection.split.map fun _ => ()
  | none, some _ => .ok ()
  | _, _ => .error .bindingNotOneSource

def validate (b : Binding) (kind : AclKind) : Except Error Unit :=
  if b.types.isEmpty then .error .bindingWithoutTypes
  else
    match b.types.find? fun right => !kind.dynamicRights.contains right with
    | some right => .error (.unsupportedBindingType right kind)
    | none => b.validateSource

end Binding

/-- A named entry: a binding, or the removal of an inherited one. -/
inductive AclBinding where
  | disabled
  | enabled (binding : Binding)

namespace AclBinding

def enabled? : AclBinding → Option Binding
  | disabled => none
  | enabled b => some b

def validate (kind : AclKind) : AclBinding → Except Error Unit
  | disabled => .ok ()
  | enabled b => b.validate kind

end AclBinding

/-- Bindings by name. -/
abbrev Bindings := SortedMap String AclBinding

namespace Bindings

def set (bindings : Bindings) (kind : AclKind) (name : String)
    (binding : AclBinding) : Except Error Bindings :=
  (binding.validate kind).map fun _ => bindings.insert name binding

def validate (bindings : Bindings) (kind : AclKind) : Except Error Unit :=
  bindings.values.forM fun binding => binding.validate kind

/-- The bindings that grant a right to a requester. -/
def granting (bindings : Bindings) (right : Right) (roles : Roles) :
    List Binding :=
  (bindings.values.filterMap AclBinding.enabled?).filter fun b =>
    b.grants right && b.inScope roles

end Bindings

end GovernedCatalog
