import GovernedCatalog.Proofs.Document.Relinking
import GovernedCatalog.Proofs.Model.History
import GovernedCatalog.Proofs.Model.Unlinking

/-!
# Drops undo additions

A part that was added to a closed model and was not there before can be dropped
again, and the drop gives back the very model that the part was added to.  A
reference is undone at both of its ends, where it may share its foreign key and
its target with others.  In a closed model nothing depends on a name that is not
there, so that the drops of the other parts find nothing to drop before them.
-/

namespace GovernedCatalog

open Removal (within)

/-- An addition of one part to a model. -/
inductive Addition where
  | schema (s : Schema)
  | table (schemaName : String) (t : Table)
  | column (path : TablePath) (c : Column)
  | key (path : TablePath) (columns : ColumnSet)
      (constraint? : Option ConstraintName)
  | reference (source : TablePath) (mapping : ReferenceMap)
      (constraint? : Option ConstraintName)
      (onDelete onUpdate : ReferentialAction)

namespace Addition

def add (m : Model) : Addition → Except Error Model
  | schema s => m.addSchema s
  | table schemaName t => m.addTable schemaName t
  | column path c => m.addColumn path c
  | key path columns constraint? => m.addKey path columns constraint?
  | reference source mapping constraint? onDelete onUpdate =>
      m.addReference source mapping constraint? onDelete onUpdate

/-- The part that is added. -/
def part : Addition → Part
  | schema s => .schema s.name
  | table schemaName t => .table ⟨schemaName, t.name⟩
  | column path c => .column path c.name
  | key path columns _ => .key path columns
  | reference source mapping _ _ _ => .reference ⟨source, mapping⟩

/-- A schema comes without tables, and a table without references from it and to
it, as empty ones do. -/
def Bare : Addition → Prop
  | schema s => s.tables = ∅
  | table _ t =>
      t.references = [] ∧ ∀ key ∈ t.keys.values, key.referencedBy = ∅
  | _ => True

end Addition

/-! ## Entries that come and go -/

namespace Table

theorem eraseP_insertColumn {c : Column} {columns : List Column}
    (h : ∀ d ∈ columns, d.name ≠ c.name) :
    ((insertColumn c columns).eraseP fun d => d.name == c.name) = columns := by
  induction columns with
  | nil => simp [insertColumn]
  | cons d rest ih =>
      obtain ⟨hne, hrest⟩ := List.forall_mem_cons.1 h
      unfold insertColumn
      by_cases hafter : isAfter d c = true
      · simp [if_pos hafter]
      · rw [if_neg hafter, List.eraseP_cons_of_neg (by simpa using hne), ih hrest]

theorem hasColumn_insertColumn (t : Table) (c : Column) :
    ({ t with columns := insertColumn c t.columns } : Table).hasColumn c.name =
      true := by
  rw [hasColumn_iff]
  exact ((insertColumn_perm c t.columns).map Column.name).mem_iff.2
    List.mem_cons_self

theorem removeKey_addKey {t : Table} {columns : ColumnSet}
    (h : t.key? columns = none) (constraint? : Option ConstraintName) :
    (t.addKey columns constraint?).removeKey columns = t := by
  have hkeys : ((t.addKey columns constraint?).removeKey columns).keys =
      t.keys := by
    refine SortedMap.ext_get? fun columns' => ?_
    change ((t.addKey columns constraint?).keys.erase columns).get? columns' = _
    rw [SortedMap.get?_erase]
    by_cases heq : columns' = columns
    · rw [if_pos heq, heq]
      exact h.symm
    · rw [if_neg heq]
      exact (key?_addKey ..).trans (if_neg heq)
  exact Table.ext rfl rfl rfl rfl rfl hkeys rfl rfl rfl rfl

/-- No reference of a table is from a column that it does not have. -/
theorem WellFormed.references_of_fresh {t : Table} {path : TablePath}
    (ht : t.WellFormed path) {name : String} (h : t.hasColumn name = false) :
    (t.references.filter fun r => r.mapping.fromColumns.contains name) = [] := by
  refine List.filter_eq_nil_iff.2 fun r hr hcontains => ?_
  obtain ⟨fk, hfk, -⟩ := reference?_eq_some_iff.1 (ht.mem_references.1 hr)
  have hhas := ht.foreignKey_columns hfk name (SortedSet.contains_iff.1 hcontains)
  rw [h] at hhas
  cases hhas

/-- No key of a table has a column that the table does not have. -/
theorem WellFormed.keys_of_fresh {t : Table} {path : TablePath}
    (ht : t.WellFormed path) {name : String} (h : t.hasColumn name = false) :
    (t.keys.keys.filter fun columns => columns.contains name) = [] := by
  refine List.filter_eq_nil_iff.2 fun columns hcolumns hcontains => ?_
  obtain ⟨key, hkey⟩ := SortedMap.mem_keys_iff.1 hcolumns
  have hhas := ht.key_columns hkey name (SortedSet.contains_iff.1 hcontains)
  rw [h] at hhas
  cases hhas

theorem relatedReferences_eq_nil {t : Table} (hreferences : t.references = [])
    (hkeys : ∀ key ∈ t.keys.values, key.referencedBy = ∅) :
    (Model.relatedReferences t).elems = [] := by
  refine List.eq_nil_iff_forall_not_mem.2 fun id hid => ?_
  rw [SortedSet.mem_elems, Model.relatedReferences, SortedSet.mem_ofList,
    hreferences, List.map_nil, List.nil_append, List.mem_flatMap] at hid
  obtain ⟨key, hkey, hid⟩ := hid
  rw [hkeys key hkey] at hid
  cases hid

end Table

namespace Model

variable {m m' : Model}

/-- Two changes of a table of which the second undoes the first. -/
theorem updateTable_updateTable {path : TablePath} {f g : Table → Table}
    (h : ∀ t, m.table? path = some t → g (f t) = t) :
    (m.updateTable path f).updateTable path g = m := by
  refine eq_of_tables (fun name => ?_) (fun path' => ?_) rfl rfl rfl
  · rw [emptied_updateTable, emptied_updateTable]
  · rw [table?_updateTable, table?_updateTable]
    by_cases hpath : path' = path
    · rw [if_pos hpath, if_pos rfl, hpath]
      cases ht : m.table? path with
      | none => rfl
      | some t => exact congrArg some (h t ht)
    · rw [if_neg hpath, table?_updateTable, if_neg hpath]

/-- A run that begins with an edit and goes on after it. -/
theorem Yields.exists_bind {e : Edit α} {f : α → Edit β} {a : α} {n : Model}
    (he : Yields e m a n) (hf : ∃ b, Yields (f a) n b m') :
    ∃ b, Yields (e >>= f) m b m' := by
  obtain ⟨b, hf⟩ := hf
  exact ⟨b, he.bind hf⟩

theorem dropReferences_nil_yields : Yields (dropReferences []) m [] m :=
  (Yields.pure []).bind (.pure _)

/-! ## The additions undone -/

/-- The reference goes from both of its ends, and everything else is as it was:
foreign keys are kept as long as they have references. -/
theorem Closed.unlink_addReference (hm : m.Closed) {source : TablePath}
    {mapping : ReferenceMap} {constraint? : Option ConstraintName}
    {onDelete onUpdate : ReferentialAction}
    (hfresh : m.reference? ⟨source, mapping⟩ = none)
    (h : m.addReference source mapping constraint? onDelete onUpdate = .ok m') :
    m'.unlink ⟨source, mapping⟩ = m := by
  have hclosed := hm.addReference h
  obtain ⟨-, ⟨t, ht, -⟩, rfl⟩ := addReference_eq_ok h
  refine Closed.eq_of_unlinked ?_ hm ?_ fun id => ?_
  · unfold unlink
    rw [hclosed.removeReference_eq_without]
    exact hclosed.without (Removal.within_reference_cascades _)
  · unfold unlink
    rw [unlinked_updateTable, unlinked_updateTable, unlinked_updateTable,
      unlinked_updateTable]
    · exact fun _ => rfl
    · exact fun t => t.unlinked_updateKey _ _
    · exact fun _ => rfl
    · exact fun t => t.unlinked_updateKey _ _
  · rw [reference?_unlink, reference?_updateKey, reference?_addReference ht]
    change (if id = ⟨source, mapping⟩ then none
      else if id = ⟨source, mapping⟩ then _ else m.reference? id) = _
    by_cases hid : id = ⟨source, mapping⟩
    · rw [if_pos hid, hid, hfresh]
    · rw [if_neg hid, if_neg hid]

theorem Closed.dropReference_addReference (hm : m.Closed) {source : TablePath}
    {mapping : ReferenceMap} {constraint? : Option ConstraintName}
    {onDelete onUpdate : ReferentialAction}
    (hfresh : m.reference? ⟨source, mapping⟩ = none)
    (h : m.addReference source mapping constraint? onDelete onUpdate = .ok m') :
    ∃ statements, Yields (dropReference ⟨source, mapping⟩) m' statements m := by
  have hundone := hm.unlink_addReference hfresh h
  obtain ⟨-, ⟨t, ht, -⟩, rfl⟩ := addReference_eq_ok h
  refine ⟨_, dropReference_yields_iff.2 ⟨_, (reference?_updateKey ..).trans
    ((reference?_addReference ht ..).trans (if_pos rfl)), rfl, hundone.symm⟩⟩

/-- A key that is new is not referenced. -/
theorem dropKey_addKey {path : TablePath} {columns : ColumnSet}
    {constraint? : Option ConstraintName} (hfresh : m.key? path columns = none)
    (h : m.addKey path columns constraint? = .ok m') :
    ∃ statements, Yields (dropKey path columns) m' statements m := by
  obtain ⟨t, ht, -, rfl⟩ := addKey_eq_ok h
  have hnone : t.key? columns = none := by
    simpa [key?, ht] using hfresh
  have hundone : (m.updateTable path (·.addKey columns constraint?)).updateTable
      path (·.removeKey columns) = m := by
    refine updateTable_updateTable fun s hs => Table.removeKey_addKey ?_ _
    rw [ht, Option.some.injEq] at hs
    rw [← hs, hnone]
  have hadded : (m.updateTable path (·.addKey columns constraint?)).table? path =
      some (t.addKey columns constraint?) := by
    rw [table?_updateTable, if_pos rfl, ht, Option.map_some]
  have hkey : (t.addKey columns constraint?).key? columns =
      some ((UniqueKey.fresh t.path columns).addConstraint constraint?) := by
    rw [Table.key?_addKey, if_pos rfl, hnone, Option.getD_none]
  have hreferences : ((UniqueKey.fresh t.path columns).addConstraint
      constraint?).referencedBy.elems = [] := by
    rw [UniqueKey.addConstraint_referencedBy]
    rfl
  refine Yields.get.exists_bind ((Yields.lift (table_eq_ok_iff.2 hadded)).exists_bind
    ((Yields.lift (Table.key_eq_ok_iff.2 hkey)).exists_bind ?_))
  rw [hreferences]
  refine dropReferences_nil_yields.exists_bind ((Yields.modify _).exists_bind ?_)
  rw [hundone]
  exact ⟨_, Yields.get.bind (.pure _)⟩

/-- In a closed model nothing depends on a column that is not there. -/
theorem Closed.dropColumn_addColumn (hm : m.Closed) {path : TablePath}
    {c : Column} (h : m.addColumn path c = .ok m') :
    ∃ statements, Yields (dropColumn path c.name) m' statements m := by
  obtain ⟨t, _, ht, hadd, rfl⟩ := addColumn_eq_ok h
  obtain ⟨hfresh, rfl⟩ := Table.addColumn_eq_ok hadd
  have hothers : ∀ d ∈ t.columns, d.name ≠ c.name := by
    intro d hd hname
    have hhas : t.hasColumn d.name = true :=
      Table.hasColumn_iff.2 (List.mem_map_of_mem hd)
    rw [hname, hfresh] at hhas
    cases hhas
  let added : Table := { t with columns := Table.insertColumn c t.columns }
  have hremoved : added.removeColumn c.name = t :=
    Table.ext rfl rfl rfl rfl (Table.eraseP_insertColumn hothers) rfl rfl rfl rfl
      rfl
  have hundone : (m.updateTable path fun _ => added).updateTable path
      (·.removeColumn c.name) = m := by
    refine updateTable_updateTable fun s hs => ?_
    rw [ht, Option.some.injEq] at hs
    rw [hremoved, hs]
  have hadded : (m.updateTable path fun _ => added).table? path = some added := by
    rw [table?_updateTable, if_pos rfl, ht, Option.map_some]
  obtain ⟨d, hd⟩ := Option.isSome_iff_exists.1 (t.hasColumn_insertColumn c)
  -- The references and keys of the table are those that it had before.
  have hreferences : (added.references.filter fun r =>
      r.mapping.fromColumns.contains c.name) = [] :=
    (hm.table ht).references_of_fresh hfresh
  have hkeys : (added.keys.keys.filter fun columns =>
      columns.contains c.name) = [] :=
    (hm.table ht).keys_of_fresh hfresh
  refine Yields.get.exists_bind ((Yields.lift (table_eq_ok_iff.2 hadded)).exists_bind
    ((Yields.lift (Table.column_eq_ok_iff.2 hd)).exists_bind ?_))
  rw [hreferences, hkeys]
  refine dropReferences_nil_yields.exists_bind ((Yields.pure []).exists_bind
    ((Yields.modify _).exists_bind ?_))
  rw [hundone]
  exact ⟨_, Yields.get.bind (.pure _)⟩

theorem dropTable_addTable {schema : String} {t : Table}
    (hbare : (relatedReferences t).elems = [])
    (h : m.addTable schema t = .ok m') :
    ∃ statements, Yields (dropTable ⟨schema, t.name⟩) m' statements m := by
  obtain ⟨s, hs, hfresh, rfl⟩ := addTable_eq_ok h
  have hadded := (table?_insertTable hs t ⟨schema, t.name⟩).trans (if_pos rfl)
  have hundone : ((m.updateSchema schema fun _ =>
      { s with tables := s.tables.insert t.name t }).updateSchema schema fun s =>
        { s with tables := s.tables.erase t.name }) = m := by
    refine Model.ext (SortedMap.ext_get? fun name => ?_) rfl rfl rfl
    refine (SortedMap.get?_modify ..).trans ?_
    rw [schemas_insertTable hs, schemas_insertTable hs]
    by_cases hname : name = schema
    · rw [if_pos hname, if_pos rfl, hname, hs, Option.map_some,
        SortedMap.erase_insert_of_none hfresh]
    · rw [if_neg hname, if_neg hname]
  refine Yields.get.exists_bind
    ((Yields.lift (table_eq_ok_iff.2 hadded)).exists_bind ?_)
  rw [hbare]
  refine dropReferences_nil_yields.exists_bind (Yields.get.exists_bind
    ((Yields.lift (table_eq_ok_iff.2 hadded)).exists_bind
      ((Yields.modify _).exists_bind ?_)))
  rw [hundone]
  exact ⟨_, Yields.get.bind (.pure _)⟩

theorem dropSchema_addSchema {s : Schema} (hbare : s.tables = ∅)
    (h : m.addSchema s = .ok m') :
    ∃ statements, Yields (dropSchema s.name) m' statements m := by
  obtain ⟨hfresh, rfl⟩ := addSchema_eq_ok h
  have hadded : (m.schemas.insert s.name s).get? s.name = some s := by
    rw [SortedMap.get?_insert, if_pos rfl]
  refine Yields.get.exists_bind
    ((Yields.lift (schema_eq_ok_iff.2 hadded)).exists_bind ?_)
  rw [hbare]
  refine (Yields.pure []).exists_bind ((Yields.modify _).exists_bind ?_)
  rw [SortedMap.erase_insert_of_none hfresh]
  exact ⟨_, Yields.get.bind (.pure _)⟩

/-- Dropping what was added to a closed model, and was not there before, gives
back the model before the addition. -/
theorem drop_undoes_add (hm : m.Closed) {a : Addition} (hbare : a.Bare)
    (hfresh : ¬m.Has a.part) (h : a.add m = .ok m') :
    ∃ statements, a.part.drop.run.run m' = (.ok statements, m) := by
  cases a with
  | schema s => exact dropSchema_addSchema hbare h
  | table schema t =>
      exact dropTable_addTable
        (Table.relatedReferences_eq_nil hbare.1 hbare.2) h
  | column path c => exact hm.dropColumn_addColumn h
  | key path columns constraint? =>
      refine dropKey_addKey ?_ h
      exact Option.eq_none_iff_forall_ne_some.2 fun key hkey =>
        hfresh (has_key.2 ⟨key, hkey⟩)
  | reference source mapping constraint? onDelete onUpdate =>
      refine hm.dropReference_addReference ?_ h
      exact Option.eq_none_iff_forall_ne_some.2 fun r hr =>
        hfresh (has_reference.2 ⟨r, hr⟩)

/-- A table of which both columns are keys. -/
def bosses : Model :=
  (fresh "sys").after
    (staff ++ [.addKey ⟨"staff", "people"⟩ (.ofList ["boss"]) none])

/-- A second reference from the same column, to another key of its table. -/
def secondBoss : Addition :=
  let people : TablePath := ⟨"staff", "people"⟩
  .reference people ⟨people, .ofList [("boss", "boss")], by decide⟩
    (some ⟨"staff", "people_boss_fkey"⟩) .noAction .noAction

theorem drop_undoes_add_secondBoss :
    bosses.Closed ∧ secondBoss.Bare ∧ ¬bosses.Has secondBoss.part ∧
      ∃ m', secondBoss.add bosses = .ok m' ∧
        ∃ statements, secondBoss.part.drop.run.run m' =
          (.ok statements, bosses) := by
  have hclosed : bosses.Closed := by
    refine after_closed (fresh_closed "sys") fun c hc => ?_
    rcases List.mem_append.1 hc with hc | hc
    · exact staff_built c hc
    · rw [List.mem_singleton.1 hc]
      trivial
  have hfresh : ¬bosses.Has secondBoss.part := by
    rintro ⟨_, h⟩
    cases h
  obtain ⟨m', hadd⟩ : ∃ m', secondBoss.add bosses = .ok m' := ⟨_, rfl⟩
  exact ⟨hclosed, trivial, hfresh, m', hadd,
    drop_undoes_add hclosed trivial hfresh hadd⟩

end Model

end GovernedCatalog
