import GovernedCatalog.Json.Decode
import GovernedCatalog.Model.Entity

/-!
# Targets of requests

A request names an entity by an array of its kind and its names.  It can also
name an entity that is in no model, with nothing but its names.
-/

namespace GovernedCatalog

inductive Session.Target where
  /-- An entity of the model. -/
  | address (a : Address)
  /-- An entity that is not in the model. -/
  | apart (e : Entity)

open Json

def TablePath.ofJson? (j : Json) : Option TablePath :=
  (asPair j).map fun (schema, table) => ⟨schema, table⟩

def ColumnSet.ofJson? (j : Json) : Option ColumnSet :=
  (asStrings j).map SortedSet.ofList

def ReferenceMap.ofJson (target : TablePath) (pairs : Json) :
    Except Error ReferenceMap := do
  (ofPairs target (← readable (asList asPair pairs))).mapError
    (.invalidMapping target)

def ReferenceId.ofJson (source : TablePath) (target pairs : Json) :
    Except Error ReferenceId := do
  let target ← readable (TablePath.ofJson? target)
  return ⟨source, ← ReferenceMap.ofJson target pairs⟩

namespace Session.Target

/-- The target of the kind, under the names. -/
def ofParts (kind : String) (names : List Json) : Except Error Target :=
  match kind, names with
  | "catalog", [] => return address .catalog
  | "schema", [str s] => return address (.schema s)
  | "table", [str s, str t] => return address (.table ⟨s, t⟩)
  | "column", [str s, str t, str c] => return address (.column ⟨s, t⟩ c)
  | "unique", [str s, str t, cs] => do
      return address (.key ⟨s, t⟩ (← readable (ColumnSet.ofJson? cs)))
  | "fkey", [str s, str t, cs] => do
      return address (.foreignKey ⟨s, t⟩ (← readable (ColumnSet.ofJson? cs)))
  | "keyref", [str s, str t, target, pairs] => do
      return address (.reference (← ReferenceId.ofJson ⟨s, t⟩ target pairs))
  | "new_schema", [str s] => return apart (.schema (.fresh s))
  | "new_table", [str s, str t] => return apart (.table (.fresh s t .table))
  | "new_column", [str s, str t, str c] =>
      return apart (.column (.stored ⟨s, t⟩ c 0 .text none))
  | "new_unique", [str s, str t, cs] => do
      return apart (.key (.fresh ⟨s, t⟩ (← readable (ColumnSet.ofJson? cs))))
  | "new_fkey", [str s, str t, cs] => do
      return apart
        (.foreignKey (.fresh ⟨s, t⟩ (← readable (ColumnSet.ofJson? cs))))
  | "new_keyref", [str s, str t, target, pairs] => do
      let id ← ReferenceId.ofJson ⟨s, t⟩ target pairs
      return apart
        (.reference (.fresh id.source id.mapping .noAction .noAction))
  | _, _ => .error .malformedJson

def ofJson : Json → Except Error Target
  | arr (str kind :: names) => ofParts kind names
  | _ => .error .malformedJson

end Session.Target

end GovernedCatalog
