import GovernedCatalog.Introspection.Report
import GovernedCatalog.Proofs.Agreement
import GovernedCatalog.Proofs.Introspection.Reading
import GovernedCatalog.Proofs.Model.Placement
import Mathlib.Data.List.Nodup

/-!
# The order of a database's rows

An introspection does not depend on the order in which a dump lists its rows, if
no two rows describe the same thing.  Rows of schemas and of tables change
different parts of the model, so that any two of them may be exchanged.
Constraints are sorted before they are entered.
-/

namespace GovernedCatalog.Introspection

/-! ## The order of constraints

Rows of constraints are sorted by the names of the constraint and of its table.
Rows that differ in those names have one sorted list, whatever their order was,
and of the rows on one table those with lesser names come first. -/

variable {α : Type u} {key : α → ConstraintName × TablePath}

/-- The names by which a row is sorted. -/
def sortParts (key : α → ConstraintName × TablePath) (row : α) : List String :=
  (key row).1.parts ++ (key row).2.parts

theorem inOrder_iff {a b : α} :
    inOrder key a b = true ↔
      (compare (sortParts key a) (sortParts key b)).isLE = true :=
  Iff.rfl

theorem key_eq_of_sortParts {a b : α} (h : sortParts key a = sortParts key b) :
    key a = key b := by
  obtain ⟨hconstraint, htable⟩ := List.append_inj' h rfl
  exact Prod.ext (ConstraintName.parts_inj hconstraint)
    (TablePath.parts_inj htable)

theorem inOrder_trans (a b c : α) (hab : inOrder key a b = true)
    (hbc : inOrder key b c = true) : inOrder key a c = true :=
  Std.TransCmp.isLE_trans (inOrder_iff.1 hab) (inOrder_iff.1 hbc)

theorem inOrder_total (a b : α) :
    (inOrder key a b || inOrder key b a) = true :=
  isLE_total compare (sortParts key a) (sortParts key b)

theorem key_eq_of_inOrder {a b : α} (hab : inOrder key a b = true)
    (hba : inOrder key b a = true) : key a = key b := by
  have hcompare : compare (sortParts key a) (sortParts key b) = .eq :=
    Std.OrientedCmp.isLE_antisymm (inOrder_iff.1 hab) (inOrder_iff.1 hba)
  exact key_eq_of_sortParts (Std.LawfulEqOrd.eq_of_compare hcompare)

theorem pairwise_sorted (rows : List α) :
    (rows.mergeSort (inOrder key)).Pairwise fun a b => inOrder key a b = true :=
  List.pairwise_mergeSort inOrder_trans inOrder_total rows

/-- Rows with different keys are sorted into one list. -/
theorem sorted_eq_of_perm {rows rows' : List α} (hperm : rows.Perm rows')
    (hkeys : (rows.map key).Nodup) :
    rows.mergeSort (inOrder key) = rows'.mergeSort (inOrder key) := by
  have hsorted : (rows.mergeSort (inOrder key)).Perm
      (rows'.mergeSort (inOrder key)) :=
    (List.mergeSort_perm rows _).trans
      (hperm.trans (List.mergeSort_perm rows' _).symm)
  refine hsorted.eq_of_pairwise ?_ (pairwise_sorted rows)
    (pairwise_sorted rows')
  intro a b ha hb hab hba
  have ha' : a ∈ rows := List.mem_mergeSort.1 ha
  have hb' : b ∈ rows := hperm.mem_iff.2 (List.mem_mergeSort.1 hb)
  exact List.inj_on_of_nodup_map hkeys ha' hb' (key_eq_of_inOrder hab hba)

theorem isLE_of_append {a b c d : List String} (hlength : a.length = b.length)
    (h : (compare (a ++ c) (b ++ d)).isLE = true) :
    (compare a b).isLE = true := by
  induction a generalizing b with
  | nil =>
      rw [List.length_eq_zero_iff.1 hlength.symm]
      rfl
  | cons x rest ih =>
      obtain ⟨y, others, rfl⟩ := List.exists_cons_of_length_eq_add_one hlength.symm
      have hrest := ih (b := others) (by simpa using hlength)
      simp only [List.cons_append, List.compare_eq_compareLex,
        List.compareLex_cons_cons] at h hrest ⊢
      cases hxy : compare x y with
      | lt => rfl
      | eq => exact hrest (by simpa [hxy] using h)
      | gt => simp [hxy] at h

/-- Rows on one table are sorted by their constraints. -/
theorem isLE_constraint_of_inOrder {a b : α} (h : inOrder key a b = true) :
    (compare (key a).1 (key b).1).isLE = true :=
  isLE_of_append rfl h

end GovernedCatalog.Introspection

namespace GovernedCatalog

/-! ## Rows of the database -/

/-- No two rows describe the same constraint of a table. -/
structure Dump.ConstraintsApart (d : Dump) : Prop where
  uniques : (d.uniques.map fun row => (row.constraint, row.table)).Nodup
  foreignKeys : (d.foreignKeys.map fun row => (row.constraint, row.source)).Nodup

/-- No two rows of a list describe the same schema, table or constraint. -/
structure Dump.RowsApart (d : Dump) : Prop extends d.ConstraintsApart where
  schemas : (d.schemas.map (·.name)).Nodup
  columns : (d.columns.map (·.table)).Nodup
  tables : (d.tables.map (·.table)).Nodup

/-- The dumps have the same rows, and list them in any order. -/
structure Dump.Reordered (d d' : Dump) : Prop where
  schemas : d.schemas.Perm d'.schemas
  columns : d.columns.Perm d'.columns
  tables : d.tables.Perm d'.tables
  uniques : d.uniques.Perm d'.uniques
  foreignKeys : d.foreignKeys.Perm d'.foreignKeys
  annotations : d.annotations = d'.annotations
  acls : d.acls = d'.acls
  bindings : d.bindings = d'.bindings

namespace Introspection

open Dump

variable {settings : Settings} {m : Model}

theorem included_perm {α : Type} (settings : Settings) (schema : α → String)
    {rows rows' : List α} (h : rows.Perm rows') :
    (included settings schema rows).Perm (included settings schema rows') :=
  h.filter _

theorem included_apart {α κ : Type} {schema : α → String} {key : α → κ}
    {rows : List α} (h : (rows.map key).Nodup) :
    ((included settings schema rows).map key).Nodup :=
  h.sublist (List.filter_sublist.map key)

/-! ## Schemas -/

theorem addSchema_comm {a b : SchemaRow} (h : a.name ≠ b.name) :
    addSchema (addSchema m a) b = addSchema (addSchema m b) a := by
  refine Model.ext (SortedMap.ext_get? fun name => ?_) rfl rfl rfl
  simp only [addSchema, Model.updateSchema, Model.ensureSchema,
    SortedMap.get?_modify_getOrInsert]
  by_cases ha : name = a.name
  · subst ha
    simp [h]
  · simp [ha, h.symm]

theorem addSchemas_perm {rows rows' : List SchemaRow} (hperm : rows.Perm rows')
    (hapart : (rows.map (·.name)).Nodup) :
    rows.foldl addSchema m = rows'.foldl addSchema m := by
  refine hperm.foldl_eq' (fun a ha b hb m => ?_) m
  by_cases hname : a.name = b.name
  · rw [List.inj_on_of_nodup_map hapart ha hb hname]
  · exact addSchema_comm hname

/-! ## Tables -/

/-- The table that is there, or else an empty one of the kind. -/
def ensured (path : TablePath) (kind : String) (t? : Option Table) :
    Except Error Table :=
  (TableKind.ofText kind).map fun kind =>
    t?.getD (.fresh path.schema path.table kind)

theorem ensureTable_eq (path : TablePath) (kind : String) :
    ensureTable m path kind =
      (ensured path kind (m.table? path)).map (m.putTable path) := by
  unfold ensureTable ensured
  cases TableKind.ofText kind with
  | error e => rfl
  | ok kind =>
      have hschema : (m.ensureSchema path.schema).schemas.get? path.schema =
          some ((m.schemas.get? path.schema).getD (.fresh path.schema)) :=
        (SortedMap.get?_getOrInsert ..).trans (if_pos rfl)
      have htable : ((m.schemas.get? path.schema).getD
          (.fresh path.schema)).tables.get? path.table = m.table? path := by
        unfold Model.table?
        cases m.schemas.get? path.schema <;> rfl
      refine congrArg Except.ok (Model.updateSchema_congr hschema ?_)
      rw [SortedMap.getOrInsert_eq_insert, htable]

/-- What the row of its columns makes of a table, with the columns whose default
is left out. -/
def extended (settings : Settings) (row : ColumnsRow) (t? : Option Table) :
    Except Error (Table × List String) := do
  let columns ← row.names.zipIdx.mapM fun (name, position) =>
    readColumn settings row name position
  let t ← ensured row.table row.kind t?
  let t ← columns.foldlM (fun t c => Table.addColumn t c.1)
    { t with comment := row.comment.or t.comment }
  return (t, (columns.filter (·.2)).map fun c => columnLabel c.1)

/-- What its own row makes of a table. -/
def described (row : TableRow) (t? : Option Table) : Except Error Table :=
  (ensured row.table row.kind t?).map fun t =>
    { t with comment := t.comment.or row.comment }

theorem addColumns_eq (row : ColumnsRow) :
    addColumns settings m row =
      (extended settings row (m.table? row.table)).map fun r =>
        (m.putTable row.table r.1, r.2) := by
  unfold addColumns extended
  simp only [ensureTable_eq]
  cases row.names.zipIdx.mapM fun (name, position) =>
      readColumn settings row name position with
  | error e => rfl
  | ok columns =>
      cases ensured row.table row.kind (m.table? row.table) with
      | error e => rfl
      | ok t =>
          have hcolumns : ∀ t : Table,
              columns.foldlM (fun m c => m.addColumn row.table c.1)
                  (m.putTable row.table t) =
                (columns.foldlM (fun t c => Table.addColumn t c.1) t).map
                  (m.putTable row.table) :=
            fun _ => Model.foldlM_addColumn_putTable Prod.fst columns
          simp only [Except.map, bind, Except.bind, Model.updateTable_putTable,
            hcolumns]
          cases List.foldlM (fun t c => Table.addColumn t c.1)
            { t with comment := row.comment.or t.comment } columns <;> rfl

theorem addTable_eq (row : TableRow) :
    addTable m row =
      (described row (m.table? row.table)).map (m.putTable row.table) := by
  unfold addTable described
  rw [ensureTable_eq]
  cases ensured row.table row.kind (m.table? row.table) with
  | error e => rfl
  | ok t => exact congrArg Except.ok (Model.updateTable_putTable _)

/-! ## Rows of columns and of tables -/

/-- The model and the columns whose default was left out, with those of another
row. -/
def collect (settings : Settings) (state : Model × List String)
    (row : ColumnsRow) : Except Error (Model × List String) :=
  (addColumns settings state.1 row).map fun r => (r.1, state.2 ++ r.2)

/-- Equal models, and the same columns in any order. -/
def SameColumns (s s' : Model × List String) : Prop :=
  s.1 = s'.1 ∧ s.2.Perm s'.2

theorem sameColumns_equivalence : Equivalence SameColumns where
  refl _ := ⟨rfl, .refl _⟩
  symm h := ⟨h.1.symm, h.2.symm⟩
  trans h h' := ⟨h.1.trans h'.1, h.2.trans h'.2⟩

theorem foldlM_collect (rows : List ColumnsRow) (seen : List String) :
    rows.foldlM (collect settings) (m, seen) =
      (addAllColumns settings m rows).map fun r => (r.1, seen ++ r.2) := by
  induction rows generalizing m seen with
  | nil => simp [addAllColumns, Except.map, pure, Except.pure]
  | cons row rest ih =>
      simp only [List.foldlM_cons, addAllColumns, collect]
      cases addColumns settings m row with
      | error e => rfl
      | ok r =>
          obtain ⟨m', dropped⟩ := r
          change rest.foldlM (collect settings) (m', seen ++ dropped) = _
          rw [ih]
          simp only [bind, Except.bind]
          cases addAllColumns settings m' rest with
          | error e => rfl
          | ok later => simp [Except.map, pure, Except.pure]

theorem addAllColumns_eq (rows : List ColumnsRow) :
    addAllColumns settings m rows = rows.foldlM (collect settings) (m, []) := by
  rw [foldlM_collect]
  cases addAllColumns settings m rows <;> rfl

theorem collect_congr (s s' : Model × List String) (row : ColumnsRow)
    (h : SameColumns s s') :
    Agree SameColumns (collect settings s row) (collect settings s' row) := by
  obtain ⟨hmodel, hseen⟩ := h
  unfold collect
  rw [hmodel]
  cases addColumns settings s'.1 row with
  | error e => exact .error e e
  | ok r => exact .ok ⟨rfl, hseen.append_right r.2⟩

theorem collect_swap (s : Model × List String) (a b : ColumnsRow)
    (h : a.table ≠ b.table) :
    Agree SameColumns (collect settings s a >>= (collect settings · b))
      (collect settings s b >>= (collect settings · a)) := by
  obtain ⟨m, seen⟩ := s
  simp only [collect, addColumns_eq, map_map, map_bind,
    Model.table?_putTable_of_ne h, Model.table?_putTable_of_ne h.symm]
  refine .swap _ _ fun r r' => ⟨Model.putTable_comm h, ?_⟩
  simp only [List.append_assoc]
  exact List.perm_append_comm.append_left seen

theorem addAllColumns_perm {rows rows' : List ColumnsRow}
    (hperm : rows.Perm rows') (hapart : (rows.map (·.table)).Nodup) :
    Agree SameColumns (addAllColumns settings m rows)
      (addAllColumns settings m rows') := by
  rw [addAllColumns_eq, addAllColumns_eq]
  exact .foldlM_perm sameColumns_equivalence collect_congr collect_swap hperm
    hapart (sameColumns_equivalence.refl (m, []))

theorem addTable_swap (m : Model) (a b : TableRow) (h : a.table ≠ b.table) :
    Agree (· = ·) (addTable m a >>= (addTable · b))
      (addTable m b >>= (addTable · a)) := by
  simp only [addTable_eq, map_bind, Model.table?_putTable_of_ne h,
    Model.table?_putTable_of_ne h.symm]
  exact .swap _ _ fun t t' => Model.putTable_comm h

theorem addTables_perm {rows rows' : List TableRow} (hperm : rows.Perm rows')
    (hapart : (rows.map (·.table)).Nodup) :
    Agree (· = ·) (rows.foldlM addTable m) (rows'.foldlM addTable m) := by
  have hstep : ∀ (m m' : Model) (row : TableRow), m = m' →
      Agree (· = ·) (addTable m row) (addTable m' row) := by
    rintro m _ row rfl
    exact .refl (fun _ => rfl) _
  exact .foldlM_perm ⟨fun _ => rfl, Eq.symm, Eq.trans⟩ hstep addTable_swap hperm
    hapart rfl

/-! ## Dumps -/

section Dumps

variable {d d' : Dump} (hd : d.Reordered d')

include hd

theorem readStructure_reordered (hapart : d.RowsApart) :
    Agree SameColumns (readStructure d.reader settings)
      (readStructure d'.reader settings) := by
  have hschemas := addSchemas_perm
    (m := .fresh settings.naming.systemSchema)
    (included_perm settings SchemaRow.name hd.schemas)
    (included_apart hapart.schemas)
  have huniques := sorted_eq_of_perm
    (included_perm settings (·.table.schema) hd.uniques)
    (included_apart hapart.uniques)
  have hforeignKeys := sorted_eq_of_perm
    (included_perm settings (·.target.schema)
      (included_perm settings (·.source.schema) hd.foreignKeys))
    (included_apart (included_apart hapart.foreignKeys))
  unfold readStructure
  simp only [Dump.reader, bind, Except.bind]
  rw [hschemas, huniques, hforeignKeys]
  refine (addAllColumns_perm (included_perm settings _ hd.columns)
    (included_apart hapart.columns)).bind ?_
  rintro ⟨m, dropped⟩ ⟨_, dropped'⟩ ⟨rfl, hdropped⟩
  refine (addTables_perm (included_perm settings _ hd.tables)
    (included_apart hapart.tables)).bind ?_
  rintro m _ rfl
  -- From here on both sides run on one list of rows.
  refine .after _ fun m => .after _ fun m => ?_
  exact .ok ⟨rfl, hdropped⟩

theorem hasTable_reordered (path : TablePath) :
    d.hasTable path = d'.hasTable path := by
  unfold Dump.hasTable
  rw [hd.tables.any_eq, hd.columns.any_eq]

theorem attachAll_reordered :
    attachAll d.reader settings m = attachAll d'.reader settings m := by
  have hkind : attachKind d.reader settings = attachKind d'.reader settings := by
    unfold attachKind storedRows
    simp only [Dump.reader, hasTable_reordered hd, hd.annotations, hd.acls,
      hd.bindings]
  unfold attachAll
  rw [hkind]

end Dumps

/-- The results differ at most in the order in which dropped defaults are
reported. -/
structure SameUpToOrder (a b : Introspection) : Prop where
  model : a.model = b.model
  skipped : a.report.skipped = b.report.skipped
  droppedDefaults : a.report.droppedDefaults.Perm b.report.droppedDefaults
  valueMapCreated : a.report.valueMapCreated = b.report.valueMapCreated
  executed : a.executed = b.executed

/-- Introspections of two dumps with the same rows both fail or both succeed with
the same model, the same statements and, up to the order of the dropped defaults,
the same report. -/
theorem run_reordered {d d' : Dump} (hd : d.Reordered d')
    (hapart : d.RowsApart) (settings : Settings) :
    Agree SameUpToOrder (run d.reader settings) (run d'.reader settings) := by
  unfold run
  refine (readStructure_reordered hd hapart).bind ?_
  rintro ⟨base, dropped⟩ ⟨_, dropped'⟩ ⟨rfl, hdropped⟩
  change Agree SameUpToOrder (attachAll d.reader settings base >>= _)
    (attachAll d'.reader settings base >>= _)
  rw [attachAll_reordered hd]
  refine .after _ fun p => ?_
  extract_lets m statements
  by_cases hstatements : statements.isEmpty = true
  · rw [if_pos hstatements, if_pos hstatements]
    exact .ok ⟨rfl, rfl, hdropped, rfl, rfl⟩
  · rw [if_neg hstatements, if_neg hstatements]
    refine .after _ fun _ => .after _ fun m => ?_
    exact .ok ⟨rfl, rfl, hdropped, rfl, rfl⟩

/-- Books that name their author twice over. -/
def library : Dump where
  schemas := [⟨"shelf", none⟩, ⟨"people", some "who writes"⟩]
  columns :=
    [{ table := ⟨"shelf", "books"⟩
       kind := "r"
       comment := some "what is read"
       names := ["number", "author"]
       defaults := [some "next_number()"]
       types := ["int4", "text"]
       elementTypes := []
       domainBases := []
       comments := []
       notNulls := [true, false] },
      { table := ⟨"people", "authors"⟩
        kind := "r"
        comment := none
        names := ["name"]
        defaults := []
        types := ["text"]
        elementTypes := []
        domainBases := []
        comments := []
        notNulls := [true] }]
  tables :=
    [⟨⟨"people", "authors"⟩, "r", some "who writes"⟩,
      ⟨⟨"shelf", "books"⟩, "r", none⟩]
  uniques :=
    [⟨⟨"people", "authors_name"⟩, ⟨"people", "authors"⟩, ["name"], none⟩,
      ⟨⟨"people", "authors_key"⟩, ⟨"people", "authors"⟩, ["name"], none⟩]
  foreignKeys :=
    [⟨⟨"shelf", "written_by"⟩, ⟨"shelf", "books"⟩, ["author"],
        ⟨"people", "authors"⟩, ["name"], "CASCADE", "CASCADE", none⟩,
      ⟨⟨"shelf", "author"⟩, ⟨"shelf", "books"⟩, ["author"],
        ⟨"people", "authors"⟩, ["name"], "SET NULL", "NO ACTION", none⟩]
  annotations := []
  acls := []
  bindings := []

/-- The same rows, the last first. -/
def reversed (d : Dump) : Dump :=
  { d with
    schemas := d.schemas.reverse
    columns := d.columns.reverse
    tables := d.tables.reverse
    uniques := d.uniques.reverse
    foreignKeys := d.foreignKeys.reverse }

theorem reordered_reversed (d : Dump) : d.Reordered (reversed d) where
  schemas := (List.reverse_perm _).symm
  columns := (List.reverse_perm _).symm
  tables := (List.reverse_perm _).symm
  uniques := (List.reverse_perm _).symm
  foreignKeys := (List.reverse_perm _).symm
  annotations := rfl
  acls := rfl
  bindings := rfl

theorem library_apart : library.RowsApart where
  schemas := by decide
  columns := by decide
  tables := by decide
  uniques := by decide
  foreignKeys := by decide

theorem run_reordered_library :
    library.Reordered (reversed library) ∧ library.RowsApart ∧
      Agree SameUpToOrder (run library.reader .standard)
        (run (reversed library).reader .standard) :=
  ⟨reordered_reversed library, library_apart,
    run_reordered (reordered_reversed library) library_apart .standard⟩

end Introspection

end GovernedCatalog
