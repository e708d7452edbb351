import GovernedCatalog.ColumnType.Document
import GovernedCatalog.Model.Basic
import GovernedCatalog.Policy.Document

/-!
# Listings

A listing is a document of all that a model holds, whoever may see it.  An
outline shows its columns, keys and references only.
-/

namespace GovernedCatalog

open Json

def Column.listing (c : Column) : Json :=
  let sources :=
    match c.content with
    | .search sources => [("sources", strings sources)]
    | .stored _ _ _ => []
  object
    ([("name", .str c.name), ("nullok", .bool c.nullable),
        ("comment", Json.optional c.comment),
        ("position", ofOption (c.position?.map fun n => .int n)),
        ("type", c.type.toJson), ("default", ofOption c.default?),
        ("annotations", ofMap c.annotations), ("acls", c.acls.toJson),
        ("dynacls", c.bindings.toJson)] ++ sources)

def listIds (ids : List ReferenceId) : Json :=
  strings (ids.map ReferenceId.display)

def listConstraints (names : SortedSet ConstraintName) : Json :=
  .arr (names.elems.map ConstraintName.toJson)

def UniqueKey.listing (k : UniqueKey) : Json :=
  object
    [("columns", strings k.columns.elems),
      ("names", listConstraints k.constraints),
      ("comment", Json.optional k.comment),
      ("annotations", ofMap k.annotations),
      ("referenced_by", listIds k.referencedBy.elems)]

def Reference.listing (r : Reference) : Json :=
  object
    [("id", .str r.id.display),
      ("pairs", .arr (r.mapping.pairs.entries.map fun e => strings [e.1, e.2])),
      ("to", strings r.mapping.target.parts), ("on_delete", .str r.onDelete.sql),
      ("on_update", .str r.onUpdate.sql),
      ("names", listConstraints r.constraints),
      ("comment", Json.optional r.comment),
      ("annotations", ofMap r.annotations), ("acls", r.acls.toJson),
      ("dynacls", r.bindings.toJson)]

def ForeignKey.listing (fk : ForeignKey) : Json :=
  object
    [("columns", strings fk.columns.elems),
      ("references", .arr (fk.references.values.map Reference.listing))]

def Table.listing (t : Table) : Json :=
  object
    [("kind", .str t.kind.name), ("comment", Json.optional t.comment),
      ("columns", .arr (t.columns.map Column.listing)),
      ("uniques", .arr (t.keys.values.map UniqueKey.listing)),
      ("fkeys", .arr (t.foreignKeys.values.map ForeignKey.listing)),
      ("annotations", ofMap t.annotations), ("acls", t.acls.toJson),
      ("dynacls", t.bindings.toJson)]

def Schema.listing (s : Schema) : Json :=
  object
    [("name", .str s.name), ("comment", Json.optional s.comment),
      ("annotations", ofMap s.annotations), ("acls", s.acls.toJson),
      ("tables", ofMap (s.tables.mapValues fun _ t => t.listing))]

def Model.listing (m : Model) : Json :=
  object
    [("schemas", ofMap (m.schemas.mapValues fun _ s => s.listing)),
      ("system_schema", m.systemSchema.listing),
      ("annotations", ofMap m.annotations), ("acls", m.acls.toJson)]

def UniqueKey.outline (k : UniqueKey) : String :=
  k.columns.display ++ " <- [" ++
    Text.join "; " (k.referencedBy.elems.map ReferenceId.display) ++ "]"

def Table.outline (t : Table) : Json :=
  .arr
    [strings (t.columns.map fun c => c.name ++ " " ++ c.type.name),
      strings (t.keys.values.map UniqueKey.outline),
      listIds (t.references.map Reference.id)]

/-- The outlines of the visible tables. -/
def Model.outline (m : Model) : Json :=
  ofMap (m.schemas.mapValues fun _ s =>
    ofMap (s.tables.mapValues fun _ t => t.outline))

end GovernedCatalog
