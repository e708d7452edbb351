import GovernedCatalog.Json.Basic

/-!
# Nesting in TOML texts

A key has fewer than eighty names, and arrays and tables within a line nest
fewer than eighty deep.  A document is written with a heading for every table
that is not inside an array of other values.
-/

namespace GovernedCatalog.Toml

/-- The number of names or levels that is too much. -/
def nestingLimit : Nat := 80

mutual

/-- How deeply arrays and tables within a line nest in a value. -/
def lineDepth : Json → Nat
  | .arr items => itemsDepth items + 1
  | .obj fields => fieldsDepth fields + 1
  | _ => 0

def itemsDepth : List Json → Nat
  | [] => 0
  | j :: rest => max (lineDepth j) (itemsDepth rest)

def fieldsDepth : List (String × Json) → Nat
  | [] => 0
  | (_, j) :: rest => max (lineDepth j) (fieldsDepth rest)

end

/-- Whether an array's items are tables with headings of their own. -/
def areTables (items : List Json) : Bool :=
  !items.isEmpty && items.all fun j => j matches .obj _

mutual

/-- Whether fields can be written below a heading of so many names. -/
def fieldsFit : (names : Nat) → List (String × Json) → Bool
  | _, [] => true
  | names, (_, j) :: rest => valueFits names j && fieldsFit names rest

def valueFits : (names : Nat) → Json → Bool
  | names, .obj fields =>
      names + 1 < nestingLimit && fieldsFit (names + 1) fields
  | names, .arr items =>
      if areTables items then
        names + 1 < nestingLimit && tablesFit (names + 1) items
      else itemsDepth items + 1 < nestingLimit
  | _, _ => true

def tablesFit : (names : Nat) → List Json → Bool
  | names, .obj fields :: rest => fieldsFit names fields && tablesFit names rest
  | _, _ => true

end

/-- Whether a document can be written as a text. -/
def canHold : Json → Bool
  | .obj fields => fieldsFit 0 fields
  | _ => false

end GovernedCatalog.Toml
