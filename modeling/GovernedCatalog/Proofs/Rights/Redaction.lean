import GovernedCatalog.Proofs.Rights.Remainder
import GovernedCatalog.Proofs.Rights.Render

/-!
# The document of what is left

Documents leave out what their requester cannot see, so a model from which only
such parts are removed has the same document as before: what went away was not
in it, and all that is in it is decided and shown as it was.
-/

namespace GovernedCatalog.Render

/-! ## Lists of what is shown -/

theorem ite_visible {α : Type} (d : Decision) (x y : α) :
    (if (d != .deny) = true then x else y) = if d = .deny then y else x := by
  cases d <;> rfl

section Shown

variable {α β : Type} (m : Model) (roles : Roles) (entity : α → Entity)

/-- What is shown for those items that are visible. -/
def shown (documents : α → List β) (l : List α) : List β :=
  l.flatMap fun a =>
    if decide m roles (entity a) .enumerate = .deny then [] else documents a

theorem visible_eq_shown (render : α → Id Json) (l : List α) :
    Id.run (visible (afresh m roles) entity render l) =
      shown m roles entity (fun a => [Id.run (render a)]) l := by
  induction l with
  | nil => rfl
  | cons a rest ih =>
      unfold shown at ih ⊢
      rw [List.flatMap_cons, ← ih]
      refine (ite_visible (decide m roles (entity a) .enumerate) _ _).trans ?_
      split <;> rfl

theorem visibleByName_eq_shown (name : α → String) (render : α → Id Json)
    (l : List α) :
    Id.run (visibleByName (afresh m roles) entity name render l) =
      shown m roles entity (fun a => [(name a, Id.run (render a))]) l := by
  induction l with
  | nil => rfl
  | cons a rest ih =>
      unfold shown at ih ⊢
      rw [List.flatMap_cons, ← ih]
      refine (ite_visible (decide m roles (entity a) .enumerate) _ _).trans ?_
      split <;> rfl

/-- The references that a visible foreign key is shown with. -/
def referencesOf (fk : ForeignKey) : List Json :=
  shown m roles .reference (fun r => [Id.run (reference (afresh m roles) r)])
    fk.references.values

theorem references_eq_shown (foreignKeys : List ForeignKey) :
    Id.run (references (afresh m roles) foreignKeys) =
      shown m roles .foreignKey (referencesOf m roles) foreignKeys := by
  induction foreignKeys with
  | nil => rfl
  | cons fk rest ih =>
      unfold shown at ih ⊢
      rw [List.flatMap_cons, ← ih, referencesOf, ← visible_eq_shown]
      refine (ite_visible (decide m roles (.foreignKey fk) .enumerate) _ _).trans
        ?_
      split <;> rfl

end Shown

variable {m m' : Model} {roles : Roles}

/-- Items that went away were not shown, and those that are left are shown as
before. -/
theorem shown_remainder {ι α β γ : Type} {entity : α → Entity}
    {entity' : β → Entity} {documents : α → List γ} {documents' : β → List γ}
    {before : ι → α} {after : ι → β} {keep : ι → Bool} {l : List ι}
    (hgone : ∀ i ∈ l, keep i = false →
      decide m roles (entity (before i)) .enumerate = .deny)
    (hkept : ∀ i ∈ l, keep i = true →
      decide m' roles (entity' (after i)) .enumerate =
          decide m roles (entity (before i)) .enumerate ∧
        documents' (after i) = documents (before i)) :
    shown m' roles entity' documents' ((l.filter keep).map after) =
      shown m roles entity documents (l.map before) := by
  induction l with
  | nil => rfl
  | cons i rest ih =>
      have hrest := ih (fun i' hi' => hgone i' (List.mem_cons_of_mem _ hi'))
        fun i' hi' => hkept i' (List.mem_cons_of_mem _ hi')
      unfold shown at hrest ⊢
      rw [List.map_cons, List.flatMap_cons, ← hrest]
      cases hkeep : keep i with
      | false =>
          rw [if_pos (hgone i List.mem_cons_self hkeep),
            List.filter_cons_of_neg (by simp [hkeep])]
          rfl
      | true =>
          obtain ⟨hdecide, hdocuments⟩ := hkept i List.mem_cons_self hkeep
          rw [List.filter_cons_of_pos hkeep, List.map_cons, List.flatMap_cons,
            hdecide, hdocuments]

/-! ## What is shown of one entity -/

section Same

variable {e e' : Entity}
  (h : ∀ right, decide m' roles e' right = decide m roles e right)

include h

theorem ownerFields_same (fields : List (String × Json)) :
    Id.run (ownerFields (afresh m' roles) e' fields) =
      Id.run (ownerFields (afresh m roles) e fields) := by
  unfold ownerFields isOwner afresh
  rw [h]

theorem rights_same (hreported : e'.reportedRights = e.reportedRights) :
    Id.run (rights (afresh m' roles) e') =
      Id.run (rights (afresh m roles) e) := by
  unfold rights rightsSummary afresh
  simp only [h, hreported]

end Same

variable {r : Removal} (hm : m.Addressable)

include hm

theorem column_kept {path : TablePath} {t : Table} (ht : m.table? path = some t)
    (hkept : r.removes (.table path) = false) {c : Column}
    (hc : c.table = path) :
    Id.run (column (afresh (m.without r) roles) (m.without r) c) =
      Id.run (column (afresh m roles) m c) := by
  have hcolumn : ∀ right, decide (m.without r) roles (.column c) right =
      decide m roles (.column c) right :=
    fun _ => hm.decide_column_kept ht hkept hc
  have htable : ∀ right,
      decide (m.without r) roles (.table (t.without r)) right =
        decide m roles (.table t) right :=
    fun _ => hm.decide_table_kept ht hkept
  unfold column
  rw [hc, hm.tableOf?_kept ht hkept, hm.tableOf?_of_table? ht]
  simp only [Id.run_bind, rights_same hcolumn rfl, ownerFields_same htable]

theorem reference_kept (hclosed : m.Closed) (hr : r.Cascades)
    {id : ReferenceId} {ref : Reference}
    (href : m.reference? id = some ref)
    (hkept : r.removes (.reference id) = false) :
    Id.run (reference (afresh (m.without r) roles) ref) =
      Id.run (reference (afresh m roles) ref) := by
  have hdecide : ∀ right, decide (m.without r) roles (.reference ref) right =
      decide m roles (.reference ref) right :=
    fun _ => hm.decide_reference_kept hr hclosed href hkept
  unfold reference
  simp only [Id.run_bind, rights_same hdecide rfl, ownerFields_same hdecide]

/-! ## What is shown of a remainder -/

variable (hclosed : m.Closed) (hr : r.Unseen m roles)

include hr

section Table

variable {path : TablePath} {t : Table} (ht : m.table? path = some t)

include ht

section Kept

variable (hkept : r.removes (.table path) = false)

include hkept

theorem columns_kept :
    Id.run (visible (afresh (m.without r) roles) .column
        (column (afresh (m.without r) roles) (m.without r))
        (t.without r).columns) =
      Id.run (visible (afresh m roles) .column (column (afresh m roles) m)
        t.columns) := by
  have hpath := (hm.table ht).path_eq
  have hcolumns : (t.without r).columns = (t.columns.filter fun c =>
      !r.removes (.column t.path c.name)).map id := (List.map_id _).symm
  rw [visible_eq_shown, visible_eq_shown, hcolumns]
  conv_rhs => rw [← List.map_id t.columns]
  refine shown_remainder (fun c hc hgone => ?_) fun c hc hcolumn => ?_
  · have hget : t.column? c.name = some c :=
      (hm.table ht).column?_eq_some_iff.2 ⟨hc, rfl⟩
    rw [hpath] at hgone
    exact hr.column ht hget (by simpa using hgone)
  · have hown := (hm.table ht).column_table c hc
    refine ⟨hm.decide_column_kept ht hkept hown, ?_⟩
    exact congrArg (fun d => [d]) (column_kept hm ht hkept hown)

theorem keys_kept :
    Id.run (visible (afresh (m.without r) roles) .key (fun k => pure (key k))
        (t.without r).keys.values) =
      Id.run (visible (afresh m roles) .key (fun k => pure (key k))
        t.keys.values) := by
  have hpath := (hm.table ht).path_eq
  have hvalues : (t.without r).keys.values = (t.keys.entries.filter fun e =>
      !r.removes (.key t.path e.1)).map fun e => e.2.without r :=
    SortedMap.values_filter_mapValues ..
  rw [visible_eq_shown, visible_eq_shown, hvalues, hpath]
  refine shown_remainder (fun e he hgone => ?_) fun e he hkeptKey => ?_
  · exact hr.key ht hkept (SortedMap.get?_eq_some_iff.2 he)
      (by simpa using hgone)
  · refine ⟨hm.decide_key_kept hr.toCascades ht
      (SortedMap.get?_eq_some_iff.2 he) (by simpa using hkeptKey), ?_⟩
    -- A key is shown without the references that lead to it.
    rfl

end Kept

include hclosed

theorem referencesOf_kept {columns : ColumnSet} {fk : ForeignKey}
    (hfk : t.foreignKeys.get? columns = some fk) :
    referencesOf (m.without r) roles (fk.without r) =
      referencesOf m roles fk := by
  have hpath := ((hm.table ht).foreignKey hfk).table_eq
  have href : ∀ e ∈ fk.references.entries,
      m.reference? ⟨fk.table, e.1⟩ = some e.2 := by
    intro e he
    rw [hpath]
    exact hm.reference?_of_foreignKey ht hfk (SortedMap.get?_eq_some_iff.2 he)
  refine shown_remainder (fun e he hgone => ?_) fun e he hkept => ?_
  · exact hr.reference (href e he) (by simpa using hgone)
  · have hkept : r.removes (.reference ⟨fk.table, e.1⟩) = false := by
      simpa using hkept
    refine ⟨hm.decide_reference_kept hr.toCascades hclosed (href e he) hkept, ?_⟩
    rw [reference_kept hm hclosed hr.toCascades (href e he) hkept]

theorem references_kept :
    Id.run (references (afresh (m.without r) roles)
        (t.without r).foreignKeys.values) =
      Id.run (references (afresh m roles) t.foreignKeys.values) := by
  have hvalues : (t.without r).foreignKeys.values =
      (t.foreignKeys.entries.filter fun e =>
        !(e.2.without r).references.isEmpty).map fun e => e.2.without r :=
    SortedMap.values_mapValues_filter ..
  have hfk : ∀ e ∈ t.foreignKeys.entries,
      t.foreignKeys.get? e.1 = some e.2 :=
    fun e he => SortedMap.get?_eq_some_iff.2 he
  rw [references_eq_shown, references_eq_shown, hvalues]
  refine shown_remainder (fun e he hgone => ?_) fun e he hkept => ?_
  · exact hm.decide_foreignKey_gone hr ht (hfk e he) (by simpa using hgone)
  · refine ⟨hm.decide_foreignKey_kept hclosed hr ht (hfk e he) ?_, ?_⟩
    · simpa using hkept
    · exact referencesOf_kept hm hclosed hr ht (hfk e he)

theorem table_kept (hkept : r.removes (.table path) = false) :
    Id.run (table (afresh (m.without r) roles) (m.without r) (t.without r)) =
      Id.run (table (afresh m roles) m t) := by
  have hdecide : ∀ right,
      decide (m.without r) roles (.table (t.without r)) right =
        decide m roles (.table t) right :=
    fun _ => hm.decide_table_kept ht hkept
  unfold table
  simp only [Id.run_bind, columns_kept hm hr ht hkept,
    keys_kept hm hr ht hkept, references_kept hm hclosed hr ht,
    rights_same hdecide rfl, ownerFields_same hdecide]
  rfl

end Table

include hclosed

theorem schema_kept {name : String} {s : Schema}
    (hs : m.schemas.get? name = some s) :
    Id.run (schema (afresh (m.without r) roles) (m.without r) (s.without r)) =
      Id.run (schema (afresh m roles) m s) := by
  have hdecide : ∀ right,
      decide (m.without r) roles (.schema (s.without r)) right =
        decide m roles (.schema s) right := fun _ => rfl
  have htables : Id.run (visibleByName (afresh (m.without r) roles) .table
        Table.name (table (afresh (m.without r) roles) (m.without r))
        (s.without r).tables.values) =
      Id.run (visibleByName (afresh m roles) .table Table.name
        (table (afresh m roles) m) s.tables.values) := by
    have hvalues : (s.without r).tables.values =
        (s.tables.entries.filter fun e =>
          !r.removes (.table ⟨name, e.1⟩)).map fun e => e.2.without r := by
      rw [← hm.schema_name hs]
      exact SortedMap.values_filter_mapValues ..
    have ht : ∀ e ∈ s.tables.entries, m.table? ⟨name, e.1⟩ = some e.2 :=
      fun e he => Model.table?_eq_some_iff.2
        ⟨s, hs, SortedMap.get?_eq_some_iff.2 he⟩
    rw [visibleByName_eq_shown, visibleByName_eq_shown, hvalues]
    refine shown_remainder (fun e he hgone => ?_) fun e he hkept => ?_
    · exact hr.table (ht e he) (by simpa using hgone)
    · have hkept : r.removes (.table ⟨name, e.1⟩) = false := by
        simpa using hkept
      refine ⟨hm.decide_table_kept (ht e he) hkept, ?_⟩
      rw [table_kept hm hclosed hr (ht e he) hkept]
      rfl
  unfold schema
  simp only [Id.run_bind, htables, rights_same hdecide rfl,
    ownerFields_same hdecide]
  rfl

/-- What is left after an unseen removal has the same document. -/
theorem catalog_kept :
    Id.run (catalog (afresh (m.without r) roles) (m.without r)) =
      Id.run (catalog (afresh m roles) m) := by
  have hdecide : ∀ right, decide (m.without r) roles .catalog right =
      decide m roles .catalog right := fun _ => rfl
  have hschemas : Id.run (visibleByName (afresh (m.without r) roles) .schema
        Schema.name (schema (afresh (m.without r) roles) (m.without r))
        (m.without r).schemas.values) =
      Id.run (visibleByName (afresh m roles) .schema Schema.name
        (schema (afresh m roles) m) m.schemas.values) := by
    have hvalues : (m.without r).schemas.values =
        (m.schemas.entries.filter fun e =>
          !r.removes (.schema e.1)).map fun e => e.2.without r :=
      SortedMap.values_filter_mapValues ..
    rw [visibleByName_eq_shown, visibleByName_eq_shown, hvalues]
    refine shown_remainder (fun e he hgone => ?_) fun e he _ => ⟨rfl, ?_⟩
    · exact hr.schema (SortedMap.get?_eq_some_iff.2 he) (by simpa using hgone)
    · rw [schema_kept hm hclosed hr (SortedMap.get?_eq_some_iff.2 he)]
      rfl
  unfold catalog
  simp only [Id.run_bind, hschemas, rights_same hdecide rfl,
    ownerFields_same hdecide]
  rfl

end GovernedCatalog.Render
