import GovernedCatalog.Proofs.Rights.Visible
import GovernedCatalog.Rights.Render

/-!
# Documents in a faithful context

The document that a faithful context gives is the one of the decisions made
afresh.  It shows the visible part of the model only.
-/

namespace GovernedCatalog.Render

/-- The decisions made afresh on a model. -/
abbrev afresh (m : Model) (roles : Roles) : Ask Id := decide m roles

section Faithful

variable {models : Nat → Model} {roles : Roles} {ask : Ask (StateM Context)}
  {m : Model} (hask : Answers models roles ask m)

include hask

theorem ownerFields_evaluates {e : Entity} (he : m.Holds e)
    (fields : List (String × Json)) :
    Evaluates models roles (ownerFields ask e fields)
      (Id.run (ownerFields (afresh m roles) e fields)) :=
  .bind (.bind (hask he .owner) (.pure _)) (.ite (.pure _) (.pure _))

theorem rights_evaluates {e : Entity} (he : m.Holds e) :
    Evaluates models roles (rights ask e)
      (Id.run (rights (afresh m roles) e)) := by
  have hsummary : ∀ reported : List Right, Evaluates models roles
      (reported.mapM fun right => do return (right, ← ask e right))
      (Id.run (reported.mapM fun right => do
        return (right, ← afresh m roles e right))) := by
    intro reported
    induction reported with
    | nil => exact .pure _
    | cons right rest ih =>
        rw [List.mapM_cons, List.mapM_cons]
        exact .bind (.bind (hask he right) (.pure _)) (.bind ih (.pure _))
  exact .bind (hsummary e.reportedRights) (.pure _)

theorem visible_evaluates {α : Type} {entity : α → Entity}
    {render : α → StateM Context Json} {document : α → Id Json} {l : List α}
    (hl : ∀ a ∈ l, m.Holds (entity a) ∧
      Evaluates models roles (render a) (document a)) :
    Evaluates models roles (visible ask entity render l)
      (Id.run (visible (afresh m roles) entity document l)) := by
  induction l with
  | nil => exact .pure _
  | cons a rest ih =>
      obtain ⟨ha, hrender⟩ := hl a List.mem_cons_self
      have hrest := ih fun a' ha' => hl a' (List.mem_cons_of_mem _ ha')
      exact .bind (hask.isVisible ha)
        (.ite (.bind hrender (.bind hrest (.pure _))) hrest)

theorem visibleByName_evaluates {α : Type} {entity : α → Entity}
    (name : α → String) {render : α → StateM Context Json}
    {document : α → Id Json} {l : List α}
    (hl : ∀ a ∈ l, m.Holds (entity a) ∧
      Evaluates models roles (render a) (document a)) :
    Evaluates models roles (visibleByName ask entity name render l)
      (Id.run (visibleByName (afresh m roles) entity name document l)) := by
  induction l with
  | nil => exact .pure _
  | cons a rest ih =>
      obtain ⟨ha, hrender⟩ := hl a List.mem_cons_self
      have hrest := ih fun a' ha' => hl a' (List.mem_cons_of_mem _ ha')
      exact .bind (hask.isVisible ha)
        (.ite (.bind hrender (.bind hrest (.pure _))) hrest)

theorem reference_evaluates {r : Reference} (hr : m.Holds (.reference r)) :
    Evaluates models roles (reference ask r)
      (Id.run (reference (afresh m roles) r)) :=
  .bind (rights_evaluates hask hr)
    (.bind (ownerFields_evaluates hask hr _) (.pure _))

variable (hm : m.Addressable)

include hm

theorem column_evaluates {c : Column} (hc : m.Holds (.column c)) :
    Evaluates models roles (column ask m c)
      (Id.run (column (afresh m roles) m c)) := by
  obtain ⟨t, ht, _⟩ := Model.holds_column.1 hc
  unfold column
  refine .bind (rights_evaluates hask hc) ?_
  simp only [ht]
  exact .bind (ownerFields_evaluates hask (hm.holds_of_tableOf? ht) _) (.pure _)

variable {path : TablePath} {t : Table} (ht : m.tableOf? path = some t)

include ht

theorem references_evaluates {foreignKeys : List ForeignKey}
    (h : ∀ fk ∈ foreignKeys, fk ∈ t.foreignKeys.values) :
    Evaluates models roles (references ask foreignKeys)
      (Id.run (references (afresh m roles) foreignKeys)) := by
  induction foreignKeys with
  | nil => exact .pure _
  | cons fk rest ih =>
      obtain ⟨columns, hfk⟩ :=
        SortedMap.mem_values_iff.1 (h fk List.mem_cons_self)
      have hrest := ih fun fk' hfk' => h fk' (List.mem_cons_of_mem _ hfk')
      have hreferences : ∀ r ∈ fk.references.values,
          m.Holds (.reference r) ∧ Evaluates models roles (reference ask r)
            (Id.run (reference (afresh m roles) r)) := by
        intro r hr
        obtain ⟨mapping, hget⟩ := SortedMap.mem_values_iff.1 hr
        have hholds := hm.holds_of_mem_references ht
          (Table.mem_references_iff.2 ⟨columns, fk, mapping, hfk, hget⟩)
        exact ⟨hholds, reference_evaluates hask hholds⟩
      refine .bind (hask.isVisible (hm.holds_of_foreignKey ht hfk)) (.ite ?_ ?_)
      · exact .bind (visible_evaluates hask hreferences)
          (.bind hrest (.pure _))
      · exact .bind (.pure _) (.bind hrest (.pure _))

theorem table_evaluates :
    Evaluates models roles (table ask m t)
      (Id.run (table (afresh m roles) m t)) := by
  have hholds := hm.holds_of_tableOf? ht
  have hcolumns : ∀ c ∈ t.columns, m.Holds (.column c) ∧
      Evaluates models roles (column ask m c)
        (Id.run (column (afresh m roles) m c)) := by
    intro c hc
    have hc := hm.holds_of_mem_columns ht hc
    exact ⟨hc, column_evaluates hask hm hc⟩
  have hkeys : ∀ k ∈ t.keys.values, m.Holds (.key k) ∧
      Evaluates models roles (pure (key k)) (key k) := by
    intro k hk
    obtain ⟨columns, hget⟩ := SortedMap.mem_values_iff.1 hk
    exact ⟨hm.holds_of_key? ht hget, .pure _⟩
  refine .bind (visible_evaluates hask hcolumns)
    (.bind (visible_evaluates hask hkeys) ?_)
  refine .bind (references_evaluates hask hm ht fun _ h => h)
    (.bind (rights_evaluates hask hholds) ?_)
  exact .bind (ownerFields_evaluates hask hholds _) (.pure _)

omit ht

theorem schema_evaluates {name : String} {s : Schema}
    (hs : m.schemaOf? name = some s) :
    Evaluates models roles (schema ask m s)
      (Id.run (schema (afresh m roles) m s)) := by
  have hholds := hm.holds_of_schemaOf? hs
  have htables : ∀ t ∈ s.tables.values, m.Holds (.table t) ∧
      Evaluates models roles (table ask m t)
        (Id.run (table (afresh m roles) m t)) := by
    intro t ht
    obtain ⟨tableName, hget⟩ := SortedMap.mem_values_iff.1 ht
    have ht : m.tableOf? ⟨name, tableName⟩ = some t :=
      Option.bind_eq_some_iff.2 ⟨s, hs, hget⟩
    exact ⟨hm.holds_of_tableOf? ht, table_evaluates hask hm ht⟩
  exact .bind (visibleByName_evaluates hask Table.name htables)
    (.bind (rights_evaluates hask hholds)
      (.bind (ownerFields_evaluates hask hholds _) (.pure _)))

/-- The document of the model, as a requester with the roles may see it. -/
theorem catalog_evaluates :
    Evaluates models roles (catalog ask m)
      (Id.run (catalog (afresh m roles) m)) := by
  have hschemas : ∀ s ∈ m.schemas.values, m.Holds (.schema s) ∧
      Evaluates models roles (schema ask m s)
        (Id.run (schema (afresh m roles) m s)) := by
    intro s hs
    obtain ⟨name, hget⟩ := SortedMap.mem_values_iff.1 hs
    have hs := hm.schemaOf?_of_get? hget
    exact ⟨hm.holds_of_schemaOf? hs, schema_evaluates hask hm hs⟩
  exact .bind (visibleByName_evaluates hask Schema.name hschemas)
    (.bind (rights_evaluates hask Model.holds_catalog)
      (.bind (ownerFields_evaluates hask Model.holds_catalog _) (.pure _)))

end Faithful

/-! ## The visible part -/

section VisiblePart

variable {μ : Type → Type} [Monad μ] (ask : Ask μ) {m : Model}

theorem visible_congr {α : Type} (entity : α → Entity)
    {render render' : α → μ Json} {l : List α}
    (h : ∀ a ∈ l, render a = render' a) :
    visible ask entity render l = visible ask entity render' l := by
  induction l with
  | nil => rfl
  | cons a rest ih =>
      unfold visible
      rw [ih fun a' ha' => h a' (List.mem_cons_of_mem _ ha'),
        h a List.mem_cons_self]

theorem visibleByName_congr {α : Type} (entity : α → Entity)
    (name : α → String) {render render' : α → μ Json} {l : List α}
    (h : ∀ a ∈ l, render a = render' a) :
    visibleByName ask entity name render l =
      visibleByName ask entity name render' l := by
  induction l with
  | nil => rfl
  | cons a rest ih =>
      unfold visibleByName
      rw [ih fun a' ha' => h a' (List.mem_cons_of_mem _ ha'),
        h a List.mem_cons_self]

theorem table_visiblePart {path : TablePath} {t : Table} (ht : t.Named path)
    (hapart : path.schema ≠ m.systemSchema.name) :
    table ask m t = table ask m.visiblePart t := by
  have hcolumns : ∀ c ∈ t.columns,
      column ask m c = column ask m.visiblePart c := by
    intro c hc
    unfold column
    rw [ht.column_table c hc, Model.tableOf?_visiblePart hapart]
  unfold table
  rw [visible_congr ask .column hcolumns]

theorem schema_visiblePart (hm : m.Named) {name : String} {s : Schema}
    (hs : m.schemas.get? name = some s) (hapart : name ≠ m.systemSchema.name) :
    schema ask m s = schema ask m.visiblePart s := by
  have htables : ∀ t ∈ s.tables.values,
      table ask m t = table ask m.visiblePart t := by
    intro t ht
    obtain ⟨tableName, hget⟩ := SortedMap.mem_values_iff.1 ht
    have ht : m.table? ⟨name, tableName⟩ = some t :=
      Model.table?_eq_some_iff.2 ⟨s, hs, hget⟩
    exact table_visiblePart ask (hm.table ht) hapart
  unfold schema
  rw [visibleByName_congr ask .table Table.name htables]

/-- The document shows the visible part of the model. -/
theorem catalog_visiblePart (hm : m.Named)
    (hapart : m.schemas.get? m.systemSchema.name = none) :
    catalog ask m = catalog ask m.visiblePart := by
  have hschemas : ∀ s ∈ m.schemas.values,
      schema ask m s = schema ask m.visiblePart s := by
    intro s hs
    obtain ⟨name, hget⟩ := SortedMap.mem_values_iff.1 hs
    refine schema_visiblePart ask hm hget ?_
    rintro rfl
    rw [hapart] at hget
    cases hget
  unfold catalog
  rw [visibleByName_congr ask .schema Schema.name hschemas]
  rfl

end VisiblePart

end GovernedCatalog.Render
