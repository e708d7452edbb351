import GovernedCatalog.Ordered.Map

/-!
# JSON values

Whole numbers between `-2 ^ 63` and `2 ^ 64 - 1` are kept as such and all other
numbers as binary64 values.  The fields of an object are a list; in a canonical
value they are in key order, each key once.
-/

namespace GovernedCatalog

inductive Json where
  | null
  | bool (b : Bool)
  | int (n : Int)
  | real (x : Float)
  | str (s : String)
  | arr (items : List Json)
  | obj (fields : List (String × Json))
  deriving Inhabited

namespace Json

/-- Fields in key order; of two with the same key the later one stays. -/
def sortFields (fields : List (String × Json)) : List (String × Json) :=
  (SortedMap.ofList fields).entries

/-- The object with the given fields. -/
def object (fields : List (String × Json)) : Json := obj (sortFields fields)

def ofMap (m : SortedMap String Json) : Json := obj m.entries

def strings (texts : List String) : Json := arr (texts.map str)

def ofOption : Option Json → Json
  | none => null
  | some j => j

def optional (s : Option String) : Json := ofOption (s.map str)

def isNull : Json → Bool
  | null => true
  | _ => false

mutual

/-- The value with every object's fields in key order. -/
def canonical : Json → Json
  | arr items => arr (canonicalItems items)
  | obj fields => obj (sortFields (canonicalFields fields))
  | j => j

def canonicalItems : List Json → List Json
  | [] => []
  | j :: rest => j.canonical :: canonicalItems rest

def canonicalFields : List (String × Json) → List (String × Json)
  | [] => []
  | (k, j) :: rest => (k, j.canonical) :: canonicalFields rest

end

mutual

/-- The value without those fields of its objects that are null. -/
def withoutNulls : Json → Json
  | arr items => arr (itemsWithoutNulls items)
  | obj fields => obj (fieldsWithoutNulls fields)
  | j => j

def itemsWithoutNulls : List Json → List Json
  | [] => []
  | j :: rest => j.withoutNulls :: itemsWithoutNulls rest

def fieldsWithoutNulls : List (String × Json) → List (String × Json)
  | [] => []
  | (k, j) :: rest =>
      if j.isNull then fieldsWithoutNulls rest
      else (k, j.withoutNulls) :: fieldsWithoutNulls rest

end

end Json

end GovernedCatalog
