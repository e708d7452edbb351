import GovernedCatalog.Json.Basic

/-!
# Reading values out of JSON

A decoder either yields a value or refuses.  Records are read from an object,
whose unknown fields are ignored and whose known fields occur at most once, or
from an array that lists the fields in their order.
-/

namespace GovernedCatalog.Json

def asString : Json → Option String
  | str s => some s
  | _ => none

def asBool : Json → Option Bool
  | bool b => some b
  | _ => none

/-- Any value, in canonical form. -/
def asAny (j : Json) : Option Json := some j.canonical

def asList (decode : Json → Option α) : Json → Option (List α)
  | arr items => items.mapM decode
  | _ => none

def asStrings : Json → Option (List String) := asList asString

/-- Null, or a value. -/
def asNullable (decode : Json → Option α) : Json → Option (Option α)
  | null => some none
  | j => (decode j).map some

def asPair : Json → Option (String × String)
  | arr [str a, str b] => some (a, b)
  | _ => none

/-- The entries of an object. -/
def asEntries {κ α : Type} (key : String → Option κ)
    (decode : Json → Option α) : Json → Option (List (κ × α))
  | obj fields => fields.mapM fun (k, j) => do
      let k ← key k
      let a ← decode j
      return (k, a)
  | _ => none

def asMap (decode : Json → Option α) (j : Json) :
    Option (SortedMap String α) :=
  (asEntries some decode j).map SortedMap.ofList

/-- The fields of a record by name. -/
abbrev Fields := String → Option Json

/-- The first field with the given name. -/
def field? (fields : List (String × Json)) (name : String) : Option Json :=
  (fields.find? fun e => e.1 == name).map (·.2)

/-- An object's fields, of which those with a known name occur once. -/
def objectFields (names : List String) : Json → Option Fields
  | obj fields =>
      if names.all fun name => (fields.filter fun e => e.1 == name).length ≤ 1
      then some (field? fields)
      else none
  | _ => none

/-- An object's fields, or the items of an array under the names in order. -/
def recordFields (names : List String) : Json → Option Fields
  | arr items =>
      if items.length ≤ names.length then some (field? (names.zip items))
      else none
  | j => objectFields names j

theorem sizeOf_field? {fields : List (String × Json)} {name : String}
    {v : Json} (h : field? fields name = some v) :
    sizeOf v < sizeOf fields := by
  obtain ⟨e, he, rfl⟩ := Option.map_eq_some_iff.1 h
  have hmem := List.sizeOf_lt_of_mem (List.mem_of_find?_eq_some he)
  obtain ⟨k, j⟩ := e
  simp only [Prod.mk.sizeOf_spec] at hmem
  show sizeOf j < _
  omega

theorem sizeOf_zip (names : List String) (items : List Json) {name : String}
    {v : Json} (h : field? (names.zip items) name = some v) :
    sizeOf v < sizeOf items := by
  obtain ⟨e, he, rfl⟩ := Option.map_eq_some_iff.1 h
  exact List.sizeOf_lt_of_mem
    (List.of_mem_zip (List.mem_of_find?_eq_some he)).2

/-- A field's value is smaller than the record. -/
theorem sizeOf_field {names : List String} {j : Json} {fields : Fields}
    {name : String} {v : Json} (hfields : recordFields names j = some fields)
    (hv : fields name = some v) : sizeOf v < sizeOf j := by
  unfold recordFields at hfields
  split at hfields
  · split at hfields
    · cases hfields
      have := sizeOf_zip names _ hv
      simp only [arr.sizeOf_spec]
      omega
    · cases hfields
  · unfold objectFields at hfields
    split at hfields
    · split at hfields
      · cases hfields
        have := sizeOf_field? hv
        simp only [obj.sizeOf_spec]
        omega
      · cases hfields
    · cases hfields

/-- The one value named by `names`, written as its name or as an object that
maps its name to null. -/
def asName (read : String → Option α) : Json → Option α
  | str s => read s
  | obj [(s, null)] => read s
  | _ => none

namespace Fields

def required (fields : Fields) (name : String) (decode : Json → Option α) :
    Option α :=
  (fields name).bind decode

def withDefault (fields : Fields) (name : String) (default : α)
    (decode : Json → Option α) : Option α :=
  match fields name with
  | none => some default
  | some j => decode j

def optional (fields : Fields) (name : String) (decode : Json → Option α) :
    Option (Option α) :=
  match fields name with
  | none => some none
  | some j => asNullable decode j

end Fields

end GovernedCatalog.Json
