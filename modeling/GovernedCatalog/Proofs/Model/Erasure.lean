import GovernedCatalog.Proofs.Model.Remainder

/-!
# Erasing one part

The changes that the drops are made of.  Each erases one part of a closed model
with what that part owns, which is what its removal leaves once nothing else in
the model depends on the part.
-/

namespace GovernedCatalog

open Removal (within)

theorem eraseP_eq_filter {columns : List Column} (name : String)
    (h : (columns.map Column.name).Nodup) :
    (columns.eraseP fun c => c.name == name) =
      columns.filter fun c => !(c.name == name) := by
  induction columns with
  | nil => rfl
  | cons c rest ih =>
      obtain ⟨hfresh, hrest⟩ := List.nodup_cons.1 h
      by_cases hname : c.name = name
      · have hothers : rest.filter (fun d => !(d.name == name)) = rest := by
          refine List.filter_eq_self.2 fun d hd => ?_
          have hne : d.name ≠ name := by
            rintro rfl
            exact hfresh (hname ▸ List.mem_map_of_mem hd)
          simp [hne]
        simp [hname, hothers]
      · simp [hname, ih hrest]

namespace Table.WellFormed

variable {t : Table} {path : TablePath}

theorem removeKey_eq_without (ht : t.WellFormed path) (columns : ColumnSet) :
    t.removeKey columns = t.without (within (.key path columns)) := by
  refine Table.ext rfl rfl rfl rfl ?_ ?_ ?_ rfl rfl rfl
  · exact (columns_of_keeps fun _ => by simp).symm
  · refine SortedMap.ext_get? fun columns' => ?_
    change (t.keys.erase columns).get? columns' =
      (t.without (within (.key path columns))).key? columns'
    rw [SortedMap.get?_erase, key?_without, ht.path_eq, key?]
    by_cases heq : columns' = columns
    · simp [heq]
    · cases t.keys.get? columns' with
      | none => simp [heq]
      | some key =>
          have hkept := key.without_of_keeps
            (r := within (.key path columns)) fun _ _ => by simp
          simp [heq, hkept]
  · exact (ht.foreignKeys_of_keeps fun _ => by simp).symm

theorem removeColumn_eq_without (ht : t.WellFormed path) (name : String) :
    t.removeColumn name = t.without (within (.column path name)) := by
  refine Table.ext rfl rfl rfl rfl ?_ ?_ ?_ rfl rfl rfl
  · refine (eraseP_eq_filter name ht.column_names).trans ?_
    refine List.filter_congr fun c _ => ?_
    simp [ht.path_eq, beq_eq_decide]
  · exact (keys_of_keeps (fun _ => by simp) fun _ _ _ => by simp).symm
  · exact (ht.foreignKeys_of_keeps fun _ => by simp).symm

theorem foreignKeys_removeReference (ht : t.WellFormed path)
    (mapping : ReferenceMap) :
    (t.removeReference mapping).foreignKeys =
      (t.without (within (.reference ⟨path, mapping⟩))).foreignKeys := by
  refine SortedMap.ext_get? fun columns => ?_
  rw [foreignKeys_without]
  unfold removeReference
  rw [SortedMap.get?_filter, SortedMap.get?_modify]
  by_cases hcolumns : columns = mapping.fromColumns
  · subst hcolumns
    rw [if_pos rfl]
    cases hfk : t.foreignKeys.get? mapping.fromColumns with
    | none => rfl
    | some fk =>
        have hsame : ({ fk with references := fk.references.erase mapping } :
            ForeignKey) = fk.without (within (.reference ⟨path, mapping⟩)) := by
          refine ForeignKey.ext rfl rfl (SortedMap.ext_get? fun mapping' => ?_)
          rw [SortedMap.get?_erase, ForeignKey.get?_without,
            (ht.foreignKey hfk).table_eq]
          simp
        rw [Option.map_some, Option.map_some, hsame]
        simp [Option.filter_some, Std.ReflOrd.compare_self]
  · rw [if_neg hcolumns]
    cases hfk : t.foreignKeys.get? columns with
    | none => rfl
    | some fk =>
        have hnamed := ht.foreignKey hfk
        have hsame : fk.without (within (.reference ⟨path, mapping⟩)) = fk := by
          refine ForeignKey.ext rfl rfl (SortedMap.ext_get? fun mapping' => ?_)
          rw [ForeignKey.get?_without]
          cases hget : fk.references.get? mapping' with
          | none => exact ite_self _
          | some r =>
              have hne : mapping' ≠ mapping := by
                rintro rfl
                exact hcolumns (hnamed.reference hget).2.2.symm
              simp [hne]
        have hother : (compare mapping.fromColumns columns != .eq) = true := by
          rw [bne_iff_ne, ne_eq, Std.LawfulEqOrd.compare_eq_iff_eq]
          exact fun h => hcolumns h.symm
        rw [Option.map_some, hsame]
        simp [Option.filter_some, hother, ht.foreignKey_nonempty hfk]

end Table.WellFormed

namespace Model.Closed

variable {m : Model}

/-- The keys of a table when the key that a reference leads to forgets it. -/
theorem keys_removeReference (hm : m.Closed) {path : TablePath} {t : Table}
    (ht : m.table? path = some t) (id : ReferenceId) :
    (if path = id.mapping.target then
        t.keys.modify id.mapping.toColumns fun key =>
          { key with referencedBy := key.referencedBy.erase id }
      else t.keys) = (t.without (within (.reference id))).keys := by
  refine SortedMap.ext_get? fun columns => ?_
  change _ = (t.without (within (.reference id))).key? columns
  have hkeep : (within (.reference id)).removes (.key t.path columns) = false := by
    simp
  rw [Table.key?_without, hkeep, if_neg Bool.false_ne_true]
  by_cases hplace : path = id.mapping.target ∧ columns = id.mapping.toColumns
  · rw [if_pos hplace.1, SortedMap.get?_modify, if_pos hplace.2, ← hplace.2]
    refine congrArg (Option.map · (t.keys.get? columns)) (funext fun key => ?_)
    refine UniqueKey.ext rfl rfl rfl rfl rfl (SortedSet.ext_mem fun id' => ?_)
    simp [UniqueKey.without]
  · have hkeys : (if path = id.mapping.target then
        t.keys.modify id.mapping.toColumns fun key =>
          { key with referencedBy := key.referencedBy.erase id }
      else t.keys).get? columns = t.key? columns := by
      by_cases hpath : path = id.mapping.target
      · rw [if_pos hpath, SortedMap.get?_modify,
          if_neg fun hcolumns => hplace ⟨hpath, hcolumns⟩]
        rfl
      · rw [if_neg hpath]
        rfl
    rw [hkeys]
    cases hkey : t.key? columns with
    | none => rfl
    | some key =>
        refine congrArg some (key.without_of_keeps fun id' hid' => ?_).symm
        have hlinks : m.Links path columns id' :=
          ⟨key, key?_eq_some_iff.2 ⟨t, ht, hkey⟩, hid'⟩
        obtain ⟨_, htarget, hcolumns⟩ := (hm.linked _ _ _).1 hlinks
        have hne : id' ≠ id := by
          rintro rfl
          exact hplace ⟨htarget.symm, hcolumns.symm⟩
        simp [hne]

theorem removeReference_eq_without (hm : m.Closed) (id : ReferenceId) :
    (m.updateTable id.source (·.removeReference id.mapping)).updateTable
        id.mapping.target (fun target =>
          target.updateKey id.mapping.toColumns fun key =>
            { key with referencedBy := key.referencedBy.erase id }) =
      m.without (within (.reference id)) := by
  refine eq_of_tables (fun name => ?_) (fun path => ?_) rfl rfl rfl
  · rw [emptied_updateTable, emptied_updateTable, emptied_without (by simp)]
  have hkept : (within (.reference id)).removes (.table path) = false := by
    simp
  rw [hm.named.table?_without, hkept, if_neg Bool.false_ne_true]
  cases ht : m.table? path with
  | none =>
      rw [table?_updateTable_of_none (table?_updateTable_of_none ht _ _)]
      rfl
  | some t =>
      have hsource : (m.updateTable id.source
          (·.removeReference id.mapping)).table? path =
            some { t with
              foreignKeys := (t.without (within (.reference id))).foreignKeys } := by
        rw [table?_updateTable]
        by_cases hpath : path = id.source
        · subst hpath
          rw [if_pos rfl, ht, Option.map_some,
            ← (hm.table ht).foreignKeys_removeReference]
          rfl
        · rw [if_neg hpath, ht, (hm.table ht).foreignKeys_of_keeps]
          intro mapping
          have hne : (⟨path, mapping⟩ : ReferenceId) ≠ id := by
            rintro rfl
            exact hpath rfl
          simp [hne]
      have hkeys := hm.keys_removeReference ht id
      have hcolumns : (t.without (within (.reference id))).columns = t.columns :=
        Table.columns_of_keeps fun _ => by simp
      rw [table?_updateTable]
      by_cases hpath : path = id.mapping.target
      · rw [if_pos hpath] at hkeys ⊢
        rw [← hpath, hsource]
        exact congrArg some (Table.ext rfl rfl rfl rfl hcolumns.symm hkeys rfl
          rfl rfl rfl)
      · rw [if_neg hpath] at hkeys ⊢
        rw [hsource]
        exact congrArg some (Table.ext rfl rfl rfl rfl hcolumns.symm hkeys rfl
          rfl rfl rfl)

/-- The tables that a removed part is not in. -/
theorem without_eq_self (hm : m.Closed) {path : TablePath} {t : Table}
    (ht : m.table? path = some t) {r : Removal}
    (hparts : ∀ p, p.tablePath? = some path → r.removes p = false)
    (hreferences : ∀ id, (m.reference? id).isSome = true →
      r.removes (.reference id) = false) : t.without r = t := by
  refine (hm.table ht).without_eq_self (fun p hp => ?_) ?_
  · exact hparts p ((hm.table ht).tablePath?_of_mem hp)
  · intro columns key hkey id hid
    have hlinks : m.Links path columns id :=
      ⟨key, key?_eq_some_iff.2 ⟨t, ht, hkey⟩, hid⟩
    exact hreferences id ((hm.linked _ _ _).1 hlinks).1

/-- A change of one table that erases a key or a column of it. -/
theorem updateTable_eq_without (hm : m.Closed) {path : TablePath}
    {f : Table → Table} {p : Part} (hp : p.tablePath? = some path)
    (honly : ∀ q, (within p).removes q = decide (q = p))
    (htable : ∀ path', p ≠ .table path') (hreference : ∀ id, p ≠ .reference id)
    (hf : ∀ t, m.table? path = some t → f t = t.without (within p)) :
    m.updateTable path f = m.without (within p) := by
  refine eq_of_tables (fun name => ?_) (fun path' => ?_) rfl rfl rfl
  · rw [emptied_updateTable, emptied_without]
    rw [honly, decide_eq_false_iff_not]
    rintro rfl
    cases hp
  have hkept : (within p).removes (.table path') = false := by
    rw [honly, decide_eq_false_iff_not]
    exact (htable path').symm
  rw [hm.named.table?_without, hkept, if_neg Bool.false_ne_true,
    table?_updateTable]
  by_cases hpath : path' = path
  · rw [if_pos hpath, hpath]
    cases ht : m.table? path with
    | none => rfl
    | some t => rw [Option.map_some, Option.map_some, hf t ht]
  · rw [if_neg hpath]
    cases ht : m.table? path' with
    | none => rfl
    | some t =>
        have hself := hm.without_eq_self ht (r := within p) ?_ ?_
        · rw [Option.map_some, hself]
        · intro q hq
          rw [honly, decide_eq_false_iff_not]
          rintro rfl
          rw [hp, Option.some.injEq] at hq
          exact hpath hq.symm
        · intro id _
          rw [honly, decide_eq_false_iff_not]
          exact (hreference id).symm

theorem removeKey_eq_without (hm : m.Closed) (path : TablePath)
    (columns : ColumnSet) :
    m.updateTable path (·.removeKey columns) =
      m.without (within (.key path columns)) :=
  hm.updateTable_eq_without rfl (by simp) (by simp) (by simp)
    fun _ ht => (hm.table ht).removeKey_eq_without columns

theorem removeColumn_eq_without (hm : m.Closed) (path : TablePath)
    (name : String) :
    m.updateTable path (·.removeColumn name) =
      m.without (within (.column path name)) :=
  hm.updateTable_eq_without rfl (by simp) (by simp) (by simp)
    fun _ ht => (hm.table ht).removeColumn_eq_without name

/-- A table from which there are no references. -/
theorem eraseTable_eq_without (hm : m.Closed) {path : TablePath}
    (h : ∀ id, (m.reference? id).isSome = true → id.source ≠ path) :
    (m.updateSchema path.schema fun s =>
        { s with tables := s.tables.erase path.table }) =
      m.without (within (.table path)) := by
  have hget : ∀ name, (m.updateSchema path.schema fun s =>
      { s with tables := s.tables.erase path.table }).schemas.get? name =
        if name = path.schema then (m.schemas.get? path.schema).map fun s =>
          { s with tables := s.tables.erase path.table }
        else m.schemas.get? name :=
    fun name => SortedMap.get?_modify ..
  refine eq_of_tables (fun name => ?_) (fun path' => ?_) rfl rfl rfl
  · rw [hget, emptied_without (by simp [Part.tablePath?])]
    by_cases hname : name = path.schema
    · rw [if_pos hname, hname, Option.map_map]
      rfl
    · rw [if_neg hname]
  rw [hm.named.table?_without]
  by_cases hpath : path' = path
  · subst hpath
    rw [if_pos (by simp [Part.tablePath?]), table?, hget, if_pos rfl]
    cases m.schemas.get? path'.schema <;> simp
  · rw [if_neg (by simp [Part.tablePath?, hpath])]
    have hsame : (m.updateSchema path.schema fun s =>
        { s with tables := s.tables.erase path.table }).table? path' =
          m.table? path' := by
      unfold table?
      rw [hget]
      cases path with
      | mk schema table =>
          cases path' with
          | mk schema' table' =>
              by_cases hschema : schema' = schema
              · subst hschema
                have htable : table' ≠ table := fun h => hpath (h ▸ rfl)
                cases m.schemas.get? schema' <;> simp [htable]
              · simp [hschema]
    rw [hsame]
    cases ht : m.table? path' with
    | none => rfl
    | some t =>
        rw [Option.map_some, hm.without_eq_self ht (fun p hp => ?_) fun id hid => ?_]
        · simp [hp, hpath]
        · simp [Part.tablePath?, h id hid]

/-- A schema from whose tables there are no references. -/
theorem eraseSchema_eq_without (hm : m.Closed) {name : String}
    (h : ∀ id, (m.reference? id).isSome = true → id.source.schema ≠ name) :
    { m with schemas := m.schemas.erase name } =
      m.without (within (.schema name)) := by
  refine Model.ext (SortedMap.ext_get? fun name' => ?_) rfl rfl rfl
  change (m.schemas.erase name).get? name' = _
  rw [SortedMap.get?_erase, schemas_without]
  by_cases hname : name' = name
  · simp [hname, Part.schemaName]
  · rw [if_neg hname, if_neg (by simp [Part.schemaName, hname])]
    cases hs : m.schemas.get? name' with
    | none => rfl
    | some s =>
        refine congrArg some ?_
        refine Schema.ext rfl rfl (SortedMap.ext_get? fun table => ?_) rfl rfl
        rw [Schema.get?_without, hm.schema_name hs,
          if_neg (by simp [Part.schemaName, hname])]
        cases hget : s.tables.get? table with
        | none => rfl
        | some t =>
            have ht : m.table? ⟨name', table⟩ = some t :=
              table?_eq_some_iff.2 ⟨s, hs, hget⟩
            rw [Option.map_some, hm.without_eq_self ht (fun p hp => ?_) fun id hid => ?_]
            · simp [Part.schemaName_of_tablePath? hp, hname]
            · simp [Part.schemaName, h id hid]

end Model.Closed

end GovernedCatalog
