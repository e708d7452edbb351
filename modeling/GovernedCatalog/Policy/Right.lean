/-!
# Rights

The permissions a requester can hold, and which of them each kind of entity
can carry.  A right is implied by every right that is sufficient for it.
-/

namespace GovernedCatalog

inductive Right where
  | owner
  | create
  | enumerate
  | write
  | insert
  | update
  | delete
  | select
  | reference
  deriving DecidableEq, Repr

namespace Right

def all : List Right :=
  [owner, create, enumerate, write, insert, update, delete, select, reference]

def name : Right → String
  | owner => "owner"
  | create => "create"
  | enumerate => "enumerate"
  | write => "write"
  | insert => "insert"
  | update => "update"
  | delete => "delete"
  | select => "select"
  | reference => "reference"

def ofName? (s : String) : Option Right := all.find? fun r => r.name == s

/-- The place of a right in listings. -/
def rank : Right → Nat
  | owner => 0
  | create => 1
  | enumerate => 2
  | write => 3
  | insert => 4
  | update => 5
  | delete => 6
  | select => 7
  | reference => 8

instance : Ord Right := ⟨compareOn rank⟩

instance : Std.TransOrd Right :=
  inferInstanceAs (Std.TransCmp (compareOn rank))

theorem rank_inj {r s : Right} (h : r.rank = s.rank) : r = s := by
  cases r <;> cases s <;> first | rfl | cases h

instance : Std.LawfulEqOrd Right where
  compare_self := Std.ReflOrd.compare_self (α := Nat)
  eq_of_compare h := rank_inj (Std.LawfulEqOrd.eq_of_compare (α := Nat) h)

/-- The rights that each imply a right, itself included. -/
def sufficient : Right → List Right
  | owner => [owner]
  | enumerate => all
  | insert => [insert, write, owner]
  | update => [update, write, owner]
  | delete => [delete, write, owner]
  | create => [create, owner]
  | write => [write, owner]
  | select => [select, owner]
  | reference => [reference, owner]

def impliedBy (right granted : Right) : Bool :=
  right.sufficient.contains granted

end Right

/-- The kinds of entity that carry access lists. -/
inductive AclKind where
  | catalog
  | schema
  | table
  | column
  | keyReference
  deriving DecidableEq, Repr

namespace AclKind

/-- The kind's name in messages. -/
def name : AclKind → String
  | catalog => "Catalog"
  | schema => "Schema"
  | table => "Table"
  | column => "Column"
  | keyReference => "KeyReference"

/-- The rights that can have an access list on this kind. -/
def staticRights : AclKind → List Right
  | catalog => Right.all
  | schema => Right.all
  | table => Right.all
  | column => [.enumerate, .write, .insert, .update, .select]
  | keyReference => [.write, .insert, .update, .enumerate]

/-- The rights that a binding can grant on this kind. -/
def dynamicRights : AclKind → List Right
  | catalog => []
  | schema => []
  | table => [.owner, .update, .delete, .select]
  | column => [.owner, .update, .delete, .select]
  | keyReference => [.owner, .insert, .update]

def supports (kind : AclKind) (right : Right) : Bool :=
  kind.staticRights.contains right

end AclKind

end GovernedCatalog
