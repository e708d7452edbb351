import GovernedCatalog.Proofs.ColumnType.Document
import GovernedCatalog.Proofs.Document.Rebuilding
import GovernedCatalog.Proofs.Policy.Document
import GovernedCatalog.Rights.Render

/-!
# Documents are read as they are written

The full document of an entity has all that describes it, and the rights of a
requester, which no reader asks for.  Read back it is the description of the
entity, if the values that clients have attached to it are canonical.
-/

namespace GovernedCatalog

open Json

/-! ## Fields that several documents have -/

namespace Json.Fields

variable {fields : Fields}

theorem annotations_eq_some {annotations : Annotations}
    (hget : fields "annotations" = some (ofMap annotations))
    (h : Annotations.IsCanonical annotations) :
    fields.annotations = some annotations :=
  withDefault_eq_some _ hget (Annotations.ofJson?_ofMap h)

theorem acls_eq_some {acls : Acls} (hget : fields "acls" = some acls.toJson) :
    fields.acls = some acls :=
  withDefault_eq_some _ hget acls.ofJson?_toJson

theorem bindings_eq_some {bindings : Bindings}
    (hget : fields "acl_bindings" = some (Bindings.toJson bindings))
    (h : Bindings.IsCanonical bindings) : fields.bindings = some bindings :=
  withDefault_eq_some _ hget (Bindings.ofJson?_toJson h)

theorem constraints_eq_some {constraints : List ConstraintName}
    (hget : fields "names" = some (.arr (constraints.map ConstraintName.toJson))) :
    fields.constraints = some constraints := by
  have hread : asList ConstraintName.ofJson?
      (.arr (constraints.map ConstraintName.toJson)) =
        some (constraints.map id) := asList_arr fun c _ => c.ofJson?_toJson
  rw [List.map_id] at hread
  exact withDefault_eq_some _ hget hread

end Json.Fields

/-! ## Columns and keys -/

structure Column.IsCanonical (c : Column) : Prop where
  default : ∀ j, c.default? = some j → j.IsCanonical ∧ j.isNull = false
  annotations : Annotations.IsCanonical c.annotations
  bindings : Bindings.IsCanonical c.bindings

/-- The fields of a column's full document. -/
def Column.fields (c : Column) (rights : Json) : List (String × Json) :=
  [("name", .str c.name), ("type", c.type.toJson),
    ("default", ofOption c.default?), ("nullok", .bool c.nullable),
    ("comment", Json.optional c.comment),
    ("annotations", ofMap c.annotations), ("rights", rights),
    ("acls", c.acls.toJson), ("acl_bindings", c.bindings.toJson)]

theorem Column.IsCanonical.optional_default {c : Column} (hc : c.IsCanonical)
    {fields : Fields} (hget : fields "default" = some (ofOption c.default?)) :
    fields.optional "default" asAny = some c.default? := by
  cases hvalue : c.default? with
  | none =>
    rw [hvalue] at hget
    exact Fields.optional_null hget
  | some j =>
    rw [hvalue] at hget
    obtain ⟨hcanonical, hnull⟩ := hc.default j hvalue
    exact Fields.optional_eq_some hget hcanonical.asAny hnull

theorem ColumnDocument.ofJson?_fields {c : Column} (hc : c.IsCanonical)
    (rights : Json) :
    ofJson? (object (c.fields rights)) = some c.document := by
  have hnodup : ((c.fields rights).map Prod.fst).Nodup := by simp [Column.fields]
  have htype : Fields.optional (field? (c.fields rights)) "type"
      TypeDocument.ofJson? = some (some c.type.document) :=
    Fields.optional_eq_some rfl c.type.document.ofJson?_toJson
      (by cases c.type <;> rfl)
  have hnullable : Fields.optional (field? (c.fields rights)) "nullok" asBool =
    some (some c.nullable) := rfl
  unfold ofJson?
  rw [recordFields_object _ hnodup]
  simp only [Option.bind_eq_bind, Option.bind_some]
  rw [Fields.optional_str rfl, htype, hc.optional_default rfl, hnullable,
    Fields.optional_text rfl,
    Fields.annotations_eq_some rfl hc.annotations, Fields.acls_eq_some rfl,
    Fields.bindings_eq_some rfl hc.bindings]
  rfl

theorem KeyDocument.ofJson?_key {key : UniqueKey}
    (h : Annotations.IsCanonical key.annotations) :
    ofJson? (Render.key key) = some key.document := by
  unfold ofJson? Render.key
  rw [recordFields_object _ (by simp)]
  simp only [Option.bind_eq_bind, Option.bind_some]
  rw [Fields.optional_eq_some rfl (asStrings_strings key.columns.elems) rfl,
    Fields.constraints_eq_some rfl, Fields.optional_text rfl,
    Fields.annotations_eq_some rfl h]
  rfl

/-! ## References -/

theorem ReferentialAction.ofJson?_sql (action : ReferentialAction) :
    ofJson? (.str action.sql) = some action := by
  cases action <;> rfl

theorem ColumnPointer.ofJson?_pointers (path : TablePath) (columns : List String) :
    asList ofJson? (Render.pointers path columns) = some (path.pointers columns) := by
  refine asList_arr fun column _ => ?_
  unfold ofJson?
  rw [recordFields_object _ (by simp)]
  rfl

structure Reference.IsCanonical (r : Reference) : Prop where
  annotations : Annotations.IsCanonical r.annotations
  bindings : Bindings.IsCanonical r.bindings

/-- The fields of a reference's full document. -/
def Reference.fields (r : Reference) (rights : Json) : List (String × Json) :=
  [("foreign_key_columns", Render.pointers r.source r.mapping.sources),
    ("referenced_columns", Render.pointers r.mapping.target r.mapping.targets),
    ("names", .arr (r.constraints.elems.map ConstraintName.toJson)),
    ("on_delete", .str r.onDelete.sql), ("on_update", .str r.onUpdate.sql),
    ("comment", Json.optional r.comment),
    ("annotations", ofMap r.annotations), ("rights", rights),
    ("acls", r.acls.toJson), ("acl_bindings", r.bindings.toJson)]

theorem ForeignKeyDocument.ofJson?_fields {r : Reference} (hr : r.IsCanonical)
    (rights : Json) :
    ofJson? (object (r.fields rights)) = some r.document := by
  have hnodup : ((r.fields rights).map Prod.fst).Nodup := by
    simp [Reference.fields]
  have hsources := ColumnPointer.ofJson?_pointers r.source r.mapping.sources
  have htargets :=
    ColumnPointer.ofJson?_pointers r.mapping.target r.mapping.targets
  unfold ofJson?
  rw [recordFields_object _ hnodup]
  simp only [Option.bind_eq_bind, Option.bind_some]
  rw [Fields.optional_eq_some rfl hsources rfl,
    Fields.optional_eq_some rfl htargets rfl, Fields.constraints_eq_some rfl,
    Fields.optional_eq_some rfl r.onDelete.ofJson?_sql rfl,
    Fields.optional_eq_some rfl r.onUpdate.ofJson?_sql rfl,
    Fields.optional_text rfl, Fields.annotations_eq_some rfl hr.annotations,
    Fields.acls_eq_some rfl, Fields.bindings_eq_some rfl hr.bindings]
  rfl

/-! ## Tables and schemas -/

/-- The fields of a table's full document, with the documents of what it owns. -/
def Table.fields (t : Table) (columns keys foreignKeys : List Json)
    (rights : Json) : List (String × Json) :=
  [("schema_name", .str t.schema), ("table_name", .str t.name),
    ("kind", .str t.kind.name), ("comment", Json.optional t.comment),
    ("column_definitions", .arr columns), ("keys", .arr keys),
    ("foreign_keys", .arr foreignKeys),
    ("annotations", ofMap t.annotations), ("rights", rights),
    ("acls", t.acls.toJson), ("acl_bindings", t.bindings.toJson)]

theorem TableDocument.ofJson?_fields {t : Table}
    {columns keys foreignKeys : List Json}
    (hannotations : Annotations.IsCanonical t.annotations)
    (hbindings : Bindings.IsCanonical t.bindings)
    (hcolumns : asList ColumnDocument.ofJson? (.arr columns) =
      some (t.columns.map Column.document))
    (hkeys : asList KeyDocument.ofJson? (.arr keys) =
      some (t.keys.values.map UniqueKey.document))
    (hforeignKeys : asList ForeignKeyDocument.ofJson? (.arr foreignKeys) =
      some (t.references.map Reference.document)) (rights : Json) :
    ofJson? (object (t.fields columns keys foreignKeys rights)) =
      some t.document := by
  have hnodup : ((t.fields columns keys foreignKeys rights).map
      Prod.fst).Nodup := by simp [Table.fields]
  unfold ofJson?
  rw [recordFields_object _ hnodup]
  simp only [Option.bind_eq_bind, Option.bind_some]
  rw [Fields.optional_str rfl, Fields.optional_str rfl, Fields.optional_str rfl,
    Fields.optional_text rfl, Fields.withDefault_eq_some _ rfl hcolumns,
    Fields.withDefault_eq_some _ rfl hkeys,
    Fields.withDefault_eq_some _ rfl hforeignKeys,
    Fields.annotations_eq_some rfl hannotations, Fields.acls_eq_some rfl,
    Fields.bindings_eq_some rfl hbindings]
  rfl

/-- The fields of a schema's full document, with the documents of its tables. -/
def Schema.fields (s : Schema) (tables : List (String × Json)) (rights : Json) :
    List (String × Json) :=
  [("schema_name", .str s.name), ("comment", Json.optional s.comment),
    ("annotations", ofMap s.annotations), ("rights", rights),
    ("tables", object tables), ("acls", s.acls.toJson)]

theorem SchemaDocument.ofJson?_fields {s : Schema} {tables : List (String × Json)}
    (hannotations : Annotations.IsCanonical s.annotations)
    (htables : asMap TableDocument.ofJson? (object tables) =
      some (s.tables.mapValues fun _ t => t.document)) (rights : Json) :
    ofJson? (object (s.fields tables rights)) = some s.document := by
  have hnodup : ((s.fields tables rights).map Prod.fst).Nodup := by
    simp [Schema.fields]
  unfold ofJson?
  rw [recordFields_object _ hnodup]
  simp only [Option.bind_eq_bind, Option.bind_some]
  rw [Fields.optional_str rfl, Fields.optional_text rfl,
    Fields.annotations_eq_some rfl hannotations, Fields.acls_eq_some rfl,
    Fields.withDefault_eq_some _ rfl htables]
  rfl

end GovernedCatalog
