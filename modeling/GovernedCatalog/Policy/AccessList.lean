import GovernedCatalog.Error
import GovernedCatalog.Ordered.Set

/-!
# Access lists

An access list names the roles that hold a right.  A right without a list is
decided elsewhere; a list, even an empty one, is final.  The role `*` stands for
every requester.
-/

namespace GovernedCatalog

def Right.ofName (name : String) : Except Error Right :=
  match Right.ofName? name with
  | some right => .ok right
  | none => .error (.unknownRight name)

/-- The roles of a requester. -/
abbrev Roles := SortedSet String

/-- Whether a list names one of the roles, or everyone. -/
def rolesMatch (members : List String) (roles : Roles) : Bool :=
  members.any fun m => m == "*" || roles.contains m

/-- A list of roles for each of some rights. -/
abbrev Acls := SortedMap Right (List String)

namespace Acls

/-- The list of a right, if the kind carries the right at all. -/
def listFor? (acls : Acls) (kind : AclKind) (right : Right) :
    Option (List String) :=
  if kind.supports right then acls.get? right else none

/-- The lists with one for another right, which the kind must carry. -/
def set (acls : Acls) (kind : AclKind) (right : Right)
    (members : List String) : Except Error Acls :=
  if kind.supports right then .ok (acls.insert right members)
  else .error (.unsupportedRight right kind)

def validate (acls : Acls) (kind : AclKind) : Except Error Unit :=
  match acls.keys.find? fun right => !kind.supports right with
  | some right => .error (.unsupportedRight right kind)
  | none => .ok ()

end Acls

end GovernedCatalog
