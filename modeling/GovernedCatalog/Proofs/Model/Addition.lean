import GovernedCatalog.Proofs.Fallible
import GovernedCatalog.Proofs.Model.Closed

/-!
# Additions keep a model closed

Every addition that is not refused leaves its tables well formed.  Only a
reference links two tables, and it is entered at both of its ends.
-/

namespace GovernedCatalog

namespace Table

variable {t : Table} {path : TablePath}

/-- A key of the table knows the reference. -/
def Links (t : Table) (columns : ColumnSet) (id : ReferenceId) : Prop :=
  ∃ key, t.key? columns = some key ∧ id ∈ key.referencedBy

theorem insertColumn_perm (c : Column) (columns : List Column) :
    (insertColumn c columns).Perm (c :: columns) := by
  induction columns with
  | nil => exact List.Perm.refl _
  | cons d rest ih =>
      unfold insertColumn
      by_cases hafter : isAfter d c = true
      · rw [if_pos hafter]
      · rw [if_neg hafter]
        exact (ih.cons d).trans (List.Perm.swap c d rest)

/-- A column whose position comes after all others is put at the end. -/
theorem insertColumn_eq_append {c : Column} {next : Nat} (hc : c.position? = some next)
    {columns : List Column}
    (hnext : ∀ d ∈ columns, ∀ position, d.position? = some position → position < next) :
    insertColumn c columns = columns ++ [c] := by
  induction columns with
  | nil => rfl
  | cons d rest ih =>
      obtain ⟨hd, hrest⟩ := List.forall_mem_cons.1 hnext
      have hafter : ¬isAfter d c = true := by
        unfold isAfter
        rw [hc]
        cases hposition : d.position? with
        | none => simp
        | some position =>
            have hlt := hd position hposition
            simp only [decide_eq_true_eq]
            omega
      rw [insertColumn, if_neg hafter, ih hrest, List.cons_append]

theorem addColumn_eq_ok {c : Column} {t' : Table} (h : t.addColumn c = .ok t') :
    t.hasColumn c.name = false ∧
      t' = { t with columns := insertColumn c t.columns } := by
  unfold addColumn at h
  by_cases hsearch : c.isSearch = true
  · rw [if_pos hsearch] at h
    cases h
  · rw [if_neg hsearch] at h
    by_cases hhas : t.hasColumn c.name = true
    · rw [if_pos hhas] at h
      cases h
    · rw [if_neg hhas] at h
      cases h
      exact ⟨by simpa using hhas, rfl⟩

namespace WellFormed

/-- A table without columns, keys and foreign keys. -/
theorem of_empty (hcolumns : t.columns = []) (hkeys : t.keys = ∅)
    (hforeignKeys : t.foreignKeys = ∅) : t.WellFormed t.path where
  path_eq := rfl
  column_table := by simp [hcolumns]
  column_names := by simp [hcolumns]
  key h := by simp [key?, hkeys] at h
  foreignKey h := by simp [hforeignKeys] at h
  key_columns h := by simp [key?, hkeys] at h
  foreignKey_columns h := by simp [hforeignKeys] at h
  foreignKey_nonempty h := by simp [hforeignKeys] at h

theorem addColumn (ht : t.WellFormed path) {c : Column} (hc : c.table = path)
    {t' : Table} (h : t.addColumn c = .ok t') : t'.WellFormed path := by
  obtain ⟨hfresh, rfl⟩ := addColumn_eq_ok h
  have hperm := insertColumn_perm c t.columns
  have hmore : ∀ {name : String}, t.hasColumn name = true →
      ({ t with columns := insertColumn c t.columns } : Table).hasColumn name =
        true := by
    intro name hname
    rw [hasColumn_iff] at hname ⊢
    exact (hperm.map Column.name).mem_iff.2 (List.mem_cons_of_mem _ hname)
  exact
    { path_eq := ht.path_eq
      column_table := by
        intro d hd
        rcases List.mem_cons.1 (hperm.mem_iff.1 hd) with rfl | hd
        · exact hc
        · exact ht.column_table d hd
      column_names := by
        refine (hperm.map Column.name).nodup_iff.2 ?_
        refine List.nodup_cons.2 ⟨fun hmem => ?_, ht.column_names⟩
        rw [hasColumn_iff.2 hmem] at hfresh
        cases hfresh
      key := ht.key
      foreignKey := ht.foreignKey
      key_columns := fun hkey name hname => hmore (ht.key_columns hkey name hname)
      foreignKey_columns := fun hfk name hname =>
        hmore (ht.foreignKey_columns hfk name hname)
      foreignKey_nonempty := ht.foreignKey_nonempty }

/-- The table with other keys. -/
theorem withKeys (ht : t.WellFormed path)
    {keys : SortedMap ColumnSet UniqueKey}
    (hkeys : ∀ {columns : ColumnSet} {key : UniqueKey},
      keys.get? columns = some key →
        (key.table = path ∧ key.columns = columns) ∧
          ∀ name ∈ columns, t.hasColumn name = true) :
    ({ t with keys := keys } : Table).WellFormed path :=
  { ht with
    key := fun h => (hkeys h).1
    key_columns := fun h => (hkeys h).2 }

/-- The table with other foreign keys. -/
theorem withForeignKeys (ht : t.WellFormed path)
    {foreignKeys : SortedMap ColumnSet ForeignKey}
    (hforeignKeys : ∀ {columns : ColumnSet} {fk : ForeignKey},
      foreignKeys.get? columns = some fk →
        fk.Named path columns ∧ fk.references.isEmpty = false ∧
          ∀ name ∈ columns, t.hasColumn name = true) :
    ({ t with foreignKeys := foreignKeys } : Table).WellFormed path :=
  { ht with
    foreignKey := fun h => (hforeignKeys h).1
    foreignKey_nonempty := fun h => (hforeignKeys h).2.1
    foreignKey_columns := fun h => (hforeignKeys h).2.2 }

theorem addKey (ht : t.WellFormed path) {columns : ColumnSet}
    (hcolumns : ∀ name ∈ columns, t.hasColumn name = true)
    (constraint? : Option ConstraintName) :
    (t.addKey columns constraint?).WellFormed path := by
  refine ht.withKeys fun {columns' key} hkey => ?_
  rw [SortedMap.get?_modify_getOrInsert] at hkey
  by_cases heq : columns' = columns
  · subst heq
    rw [if_pos rfl, Option.some.injEq] at hkey
    subst hkey
    refine ⟨?_, hcolumns⟩
    rw [UniqueKey.addConstraint_table, UniqueKey.addConstraint_columns]
    cases hold : t.keys.get? columns' with
    | none => exact ⟨ht.path_eq, rfl⟩
    | some old => exact ht.key hold
  · rw [if_neg heq] at hkey
    exact ⟨ht.key hkey, ht.key_columns hkey⟩

theorem updateKey (ht : t.WellFormed path) {columns : ColumnSet}
    {f : UniqueKey → UniqueKey} (htable : ∀ key, (f key).table = key.table)
    (hcolumns : ∀ key, (f key).columns = key.columns) :
    (t.updateKey columns f).WellFormed path := by
  refine ht.withKeys fun {columns' key} hkey => ?_
  rw [SortedMap.get?_modify] at hkey
  by_cases heq : columns' = columns
  · subst heq
    rw [if_pos rfl] at hkey
    obtain ⟨old, hold, rfl⟩ := Option.map_eq_some_iff.1 hkey
    rw [htable, hcolumns]
    exact ⟨ht.key hold, ht.key_columns hold⟩
  · rw [if_neg heq] at hkey
    exact ⟨ht.key hkey, ht.key_columns hkey⟩

theorem addReference (ht : t.WellFormed path) {fresh : Reference}
    (hsource : fresh.source = path)
    (hcolumns : ∀ name ∈ fresh.mapping.fromColumns, t.hasColumn name = true)
    (constraint? : Option ConstraintName) :
    (t.addReference fresh constraint?).WellFormed path := by
  refine ht.withForeignKeys fun {columns fk} hfk => ?_
  rw [SortedMap.get?_modify_getOrInsert] at hfk
  by_cases heq : columns = fresh.mapping.fromColumns
  · subst heq
    rw [if_pos rfl, Option.some.injEq] at hfk
    subst hfk
    have hold : ((t.foreignKeys.get? fresh.mapping.fromColumns).getD
        (.fresh fresh.source fresh.mapping.fromColumns)).Named path
          fresh.mapping.fromColumns := by
      cases hget : t.foreignKeys.get? fresh.mapping.fromColumns with
      | none => exact ⟨hsource, rfl, fun h => by simp [ForeignKey.fresh] at h⟩
      | some fk => exact ht.foreignKey hget
    refine ⟨⟨hold.table_eq, hold.columns_eq, fun {mapping r} hr => ?_⟩,
      SortedMap.isEmpty_of_get? (k := fresh.mapping)
        ((SortedMap.get?_modify_getOrInsert ..).trans (if_pos rfl)), hcolumns⟩
    rw [SortedMap.get?_modify_getOrInsert] at hr
    by_cases hmapping : mapping = fresh.mapping
    · subst hmapping
      rw [if_pos rfl, Option.some.injEq] at hr
      subst hr
      rw [Reference.addConstraint_source, Reference.addConstraint_mapping]
      cases hget : (((t.foreignKeys.get? fresh.mapping.fromColumns).getD
          (.fresh fresh.source fresh.mapping.fromColumns)).references.get?
            fresh.mapping) with
      | none => exact ⟨hsource, rfl, rfl⟩
      | some r => exact hold.reference hget
    · rw [if_neg hmapping] at hr
      exact hold.reference hr
  · rw [if_neg heq] at hfk
    exact ⟨ht.foreignKey hfk, ht.foreignKey_nonempty hfk,
      ht.foreignKey_columns hfk⟩

theorem updateReference (ht : t.WellFormed path) {updated : ReferenceMap}
    {f : Reference → Reference} (hsource : ∀ r, (f r).source = r.source)
    (hmapping : ∀ r, (f r).mapping = r.mapping) :
    (t.updateReference updated f).WellFormed path := by
  refine ht.withForeignKeys fun {columns fk} hfk => ?_
  rw [SortedMap.get?_modify] at hfk
  by_cases heq : columns = updated.fromColumns
  · subst heq
    rw [if_pos rfl] at hfk
    obtain ⟨old, hget, rfl⟩ := Option.map_eq_some_iff.1 hfk
    have hold := ht.foreignKey hget
    refine ⟨⟨hold.table_eq, hold.columns_eq, fun {mapping r} hr => ?_⟩, ?_,
      ht.foreignKey_columns hget⟩
    · rw [SortedMap.get?_modify] at hr
      by_cases hupdated : mapping = updated
      · subst hupdated
        rw [if_pos rfl] at hr
        obtain ⟨before, hbefore, rfl⟩ := Option.map_eq_some_iff.1 hr
        rw [hsource, hmapping]
        exact hold.reference hbefore
      · rw [if_neg hupdated] at hr
        exact hold.reference hr
    · have hempty := ht.foreignKey_nonempty hget
      simpa [SortedMap.isEmpty, SortedMap.modify, SortedMap.mapValues] using hempty
  · rw [if_neg heq] at hfk
    exact ⟨ht.foreignKey hfk, ht.foreignKey_nonempty hfk,
      ht.foreignKey_columns hfk⟩

end WellFormed

theorem links_addKey (columns columns' : ColumnSet)
    (constraint? : Option ConstraintName) (id : ReferenceId) :
    (t.addKey columns constraint?).Links columns' id ↔ t.Links columns' id := by
  unfold Links
  simp only [key?_addKey]
  by_cases heq : columns' = columns
  · subst heq
    cases hkey : t.key? columns' <;> simp [UniqueKey.fresh]
  · simp [heq]

theorem links_updateKey {columns columns' : ColumnSet}
    {f : UniqueKey → UniqueKey} {id : ReferenceId}
    (hf : ∀ key, id ∈ (f key).referencedBy ↔ id ∈ key.referencedBy) :
    (t.updateKey columns f).Links columns' id ↔ t.Links columns' id := by
  unfold Links
  simp only [key?_updateKey]
  by_cases heq : columns' = columns
  · subst heq
    cases hkey : t.key? columns' <;> simp [hf]
  · simp [heq]

end Table

namespace Model

theorem links_iff {m : Model} {path : TablePath} {columns : ColumnSet}
    {id : ReferenceId} :
    m.Links path columns id ↔
      ∃ t, m.table? path = some t ∧ t.Links columns id := by
  unfold Links Table.Links
  simp only [key?_eq_some_iff]
  constructor
  · rintro ⟨key, ⟨t, ht, hkey⟩, hid⟩
    exact ⟨t, ht, key, hkey, hid⟩
  · rintro ⟨t, ht, key, hkey, hid⟩
    exact ⟨key, ⟨t, ht, hkey⟩, hid⟩

theorem schema_name_updateTable {m : Model}
    (hm : ∀ {name : String} {s : Schema},
      m.schemas.get? name = some s → s.name = name)
    (path : TablePath) (f : Table → Table) {name : String} {s : Schema}
    (hs : (m.updateTable path f).schemas.get? name = some s) :
    s.name = name := by
  rw [schemas_updateTable] at hs
  by_cases hname : name = path.schema
  · rw [if_pos hname] at hs
    obtain ⟨old, hold, rfl⟩ := Option.map_eq_some_iff.1 hs
    have hkept := hm hold
    exact hkept
  · rw [if_neg hname] at hs
    exact hm hs

theorem wellFormed_updateTable {m : Model}
    (hm : ∀ {path : TablePath} {t : Table},
      m.table? path = some t → t.WellFormed path)
    {path : TablePath} {f : Table → Table}
    (hf : ∀ t, m.table? path = some t → (f t).WellFormed path)
    {path' : TablePath} {t' : Table}
    (ht : (m.updateTable path f).table? path' = some t') :
    t'.WellFormed path' := by
  rw [table?_updateTable] at ht
  by_cases hpath : path' = path
  · subst hpath
    rw [if_pos rfl] at ht
    obtain ⟨old, hold, rfl⟩ := Option.map_eq_some_iff.1 ht
    exact hf old hold
  · rw [if_neg hpath] at ht
    exact hm ht

namespace Closed

variable {m : Model}

/-- A change that keeps tables well formed and links as they are. -/
theorem of_same_links (hm : m.Closed) {m' : Model}
    (hschema : ∀ {name : String} {s : Schema},
      m'.schemas.get? name = some s → s.name = name)
    (htable : ∀ {path : TablePath} {t : Table},
      m'.table? path = some t → t.WellFormed path)
    (hlinks : ∀ path columns id,
      m'.Links path columns id ↔ m.Links path columns id)
    (hreference : ∀ id, (m'.reference? id).isSome = (m.reference? id).isSome) :
    m'.Closed := by
  refine of_linked hschema htable fun path columns id => ?_
  rw [hlinks, hm.linked, hreference]

/-- A change that keeps all tables as they are. -/
theorem of_same_tables (hm : m.Closed) {m' : Model}
    (hschema : ∀ {name : String} {s : Schema},
      m'.schemas.get? name = some s → s.name = name)
    (htable : m'.table? = m.table?) : m'.Closed := by
  refine hm.of_same_links hschema (fun ht => ?_) (fun path columns id => ?_)
    fun id => ?_
  · rw [htable] at ht
    exact hm.table ht
  · unfold Links key?
    rw [htable]
  · unfold reference?
    rw [htable]

/-- A change of one table that keeps its links as they are. -/
theorem updateTable (hm : m.Closed) {path : TablePath} {f : Table → Table}
    (hf : ∀ t, m.table? path = some t → (f t).WellFormed path)
    (hlinks : ∀ t, m.table? path = some t →
      ∀ columns id, (f t).Links columns id ↔ t.Links columns id)
    (hreference : ∀ t, m.table? path = some t → ∀ mapping,
      ((f t).reference? mapping).isSome = (t.reference? mapping).isSome) :
    (m.updateTable path f).Closed := by
  refine hm.of_same_links (schema_name_updateTable hm.schema_name path f)
    (wellFormed_updateTable hm.table hf) (fun path' columns id => ?_)
    (fun id => ?_)
  · rw [links_iff, links_iff, table?_updateTable]
    by_cases hpath : path' = path
    · subst hpath
      rw [if_pos rfl]
      cases ht : m.table? path' with
      | none => simp
      | some t => simp [hlinks t ht]
    · rw [if_neg hpath]
  · rw [reference?_updateTable]
    by_cases hpath : id.source = path
    · subst hpath
      rw [if_pos rfl, reference?]
      cases ht : m.table? id.source with
      | none => rfl
      | some t => exact hreference t ht id.mapping
    · rw [if_neg hpath]

/-- The tables at the ends of a reference. -/
theorem ends (hm : m.Closed) {id : ReferenceId}
    (hid : (m.reference? id).isSome = true) :
    ∃ t, m.table? id.source = some t ∧
      ∃ target, m.table? id.mapping.target = some target := by
  obtain ⟨r, hr⟩ := Option.isSome_iff_exists.1 hid
  obtain ⟨t, ht, _⟩ := reference?_eq_some_iff.1 hr
  obtain ⟨target, htarget, _⟩ :=
    links_iff.1 ((hm.linked _ _ id).2 ⟨hid, rfl, rfl⟩)
  exact ⟨t, ht, target, htarget⟩

/-! ## Schemas -/

theorem ensureSchema (hm : m.Closed) (name : String) :
    (m.ensureSchema name).Closed := by
  have hget : ∀ name', (m.ensureSchema name).schemas.get? name' =
      if name' = name then some ((m.schemas.get? name).getD (.fresh name))
      else m.schemas.get? name' :=
    fun name' => SortedMap.get?_getOrInsert ..
  have htable : (m.ensureSchema name).table? = m.table? := by
    funext path
    unfold table?
    rw [hget]
    by_cases hname : path.schema = name
    · subst hname
      rw [if_pos rfl]
      cases m.schemas.get? path.schema <;> rfl
    · rw [if_neg hname]
  refine hm.of_same_tables (fun {name' s} hs => ?_) htable
  rw [hget] at hs
  by_cases hname : name' = name
  · subst hname
    rw [if_pos rfl, Option.some.injEq] at hs
    subst hs
    cases hold : m.schemas.get? name' with
    | none => rfl
    | some s => exact hm.schema_name hold
  · rw [if_neg hname] at hs
    exact hm.schema_name hs

end Closed

/-- The model of one schema only. -/
def alone (s : Schema) : Model :=
  { fresh "" with schemas := SortedMap.empty.insert s.name s }

theorem table?_insertSchema (m : Model) (s : Schema) (path : TablePath) :
    ({ m with schemas := m.schemas.insert s.name s } : Model).table? path =
      if path.schema = s.name then (alone s).table? path
      else m.table? path := by
  unfold table? alone
  by_cases hname : path.schema = s.name <;> simp [hname]

theorem alone_schema {s : Schema} {path : TablePath} {t : Table}
    (ht : (alone s).table? path = some t) : path.schema = s.name := by
  by_contra hname
  simp [table?, alone, hname] at ht

theorem links_insertSchema (m : Model) (s : Schema) (path : TablePath)
    (columns : ColumnSet) (id : ReferenceId) :
    Links { m with schemas := m.schemas.insert s.name s } path columns id ↔
      if path.schema = s.name then (alone s).Links path columns id
      else m.Links path columns id := by
  simp only [links_iff, table?_insertSchema]
  by_cases hname : path.schema = s.name <;> simp [hname]

theorem reference?_insertSchema (m : Model) (s : Schema) (id : ReferenceId) :
    reference? { m with schemas := m.schemas.insert s.name s } id =
      if id.source.schema = s.name then (alone s).reference? id
      else m.reference? id := by
  unfold reference?
  rw [table?_insertSchema]
  by_cases hname : id.source.schema = s.name <;> simp [hname]

theorem addSchema_eq_ok {m m' : Model} {s : Schema}
    (h : m.addSchema s = .ok m') :
    m.schemas.get? s.name = none ∧
      m' = { m with schemas := m.schemas.insert s.name s } := by
  unfold Model.addSchema at h
  by_cases hsystem : s.name = m.systemSchema.name
  · rw [if_pos hsystem] at h
    cases h
  · rw [if_neg hsystem] at h
    by_cases hcontains : m.schemas.contains s.name = true
    · rw [if_pos hcontains] at h
      cases h
    · rw [if_neg hcontains, Except.ok.injEq] at h
      exact ⟨by simpa [SortedMap.contains] using hcontains, h.symm⟩

/-- A schema without tables is closed by itself. -/
theorem alone_closed {s : Schema} (hs : s.tables = ∅) : (alone s).Closed := by
  have htable : ∀ path, (alone s).table? path = none := by
    intro path
    by_cases hname : path.schema = s.name <;> simp [table?, alone, hname, hs]
  refine Closed.of_linked ?_ ?_ ?_
  · intro name s' hget
    by_cases hname : name = s.name
    · have heq : s = s' := by simpa [alone, hname] using hget
      rw [← heq, hname]
    · simp [alone, hname] at hget
  · intro path t ht
    rw [htable] at ht
    cases ht
  · intro path columns id
    simp [links_iff, reference?, htable]

namespace Closed

variable {m : Model}

/-- The references of a schema by itself and those of a model without that
schema do not meet. -/
theorem addSchema (hm : m.Closed) {s : Schema} (hs : (alone s).Closed)
    {m' : Model} (h : m.addSchema s = .ok m') : m'.Closed := by
  obtain ⟨hnone, rfl⟩ := addSchema_eq_ok h
  have hfresh : ∀ {path : TablePath} {t : Table},
      m.table? path = some t → path.schema ≠ s.name := by
    intro path t ht hname
    obtain ⟨old, hold, _⟩ := table?_eq_some_iff.1 ht
    rw [hname, hnone] at hold
    cases hold
  -- Both models keep a reference and the key that it leads to together.
  have hold : ∀ {id : ReferenceId}, (m.reference? id).isSome = true →
      id.source.schema ≠ s.name ∧ id.mapping.target.schema ≠ s.name := by
    intro id hid
    obtain ⟨t, ht, target, htarget⟩ := hm.ends hid
    exact ⟨hfresh ht, hfresh htarget⟩
  have hnew : ∀ {id : ReferenceId}, ((alone s).reference? id).isSome = true →
      id.source.schema = s.name ∧ id.mapping.target.schema = s.name := by
    intro id hid
    obtain ⟨t, ht, target, htarget⟩ := hs.ends hid
    exact ⟨alone_schema ht, alone_schema htarget⟩
  refine of_linked ?_ ?_ ?_
  · intro name s' hget
    rw [SortedMap.get?_insert] at hget
    by_cases hname : name = s.name
    · rw [if_pos hname, Option.some.injEq] at hget
      rw [← hget, hname]
    · rw [if_neg hname] at hget
      exact hm.schema_name hget
  · intro path t ht
    rw [table?_insertSchema] at ht
    by_cases hname : path.schema = s.name
    · rw [if_pos hname] at ht
      exact hs.table ht
    · rw [if_neg hname] at ht
      exact hm.table ht
  · intro path columns id
    rw [links_insertSchema, reference?_insertSchema]
    by_cases hname : path.schema = s.name
    · rw [if_pos hname, hs.linked]
      constructor
      · rintro ⟨hid, htarget⟩
        rw [if_pos (hnew hid).1]
        exact ⟨hid, htarget⟩
      · rintro ⟨hid, rfl, hcolumns⟩
        by_cases hsource : id.source.schema = s.name
        · rw [if_pos hsource] at hid
          exact ⟨hid, rfl, hcolumns⟩
        · rw [if_neg hsource] at hid
          exact absurd hname (hold hid).2
    · rw [if_neg hname, hm.linked]
      constructor
      · rintro ⟨hid, htarget⟩
        rw [if_neg (hold hid).1]
        exact ⟨hid, htarget⟩
      · rintro ⟨hid, rfl, hcolumns⟩
        by_cases hsource : id.source.schema = s.name
        · rw [if_pos hsource] at hid
          exact absurd (hnew hid).2 hname
        · rw [if_neg hsource] at hid
          exact ⟨hid, rfl, hcolumns⟩

end Closed

/-! ## Tables, columns and keys -/

theorem addTable_eq_ok {m m' : Model} {schema : String} {t : Table}
    (h : m.addTable schema t = .ok m') :
    ∃ s, m.schemas.get? schema = some s ∧ s.tables.get? t.name = none ∧
      m' = m.updateSchema schema fun _ =>
        { s with tables := s.tables.insert t.name t } := by
  obtain ⟨s, hs, h⟩ := bind_eq_ok.1 h
  obtain ⟨s', hs', h⟩ := bind_eq_ok.1 h
  unfold Schema.addTable at hs'
  by_cases hcontains : s.tables.contains t.name = true
  · rw [if_pos hcontains] at hs'
    cases hs'
  · rw [if_neg hcontains] at hs'
    cases hs'
    cases h
    have hnone : s.tables.get? t.name = none := by
      simpa [SortedMap.contains] using hcontains
    exact ⟨s, schema_eq_ok_iff.1 hs, hnone, rfl⟩

section InsertTable

variable {m : Model} {schema : String} {s : Schema}
  (hs : m.schemas.get? schema = some s) (t : Table)

include hs

theorem schemas_insertTable (name : String) :
    (m.updateSchema schema fun _ =>
      { s with tables := s.tables.insert t.name t }).schemas.get? name =
        if name = schema then
          some { s with tables := s.tables.insert t.name t }
        else m.schemas.get? name := by
  unfold updateSchema
  rw [SortedMap.get?_modify, hs]
  rfl

theorem table?_insertTable (path : TablePath) :
    (m.updateSchema schema fun _ =>
      { s with tables := s.tables.insert t.name t }).table? path =
        if path = ⟨schema, t.name⟩ then some t else m.table? path := by
  obtain ⟨name, table⟩ := path
  unfold table?
  rw [schemas_insertTable hs]
  by_cases hschema : name = schema
  · subst hschema
    by_cases htable : table = t.name <;> simp [hs, htable]
  · simp [hschema]

end InsertTable

theorem addColumn_eq_ok {m m' : Model} {path : TablePath} {c : Column}
    (h : m.addColumn path c = .ok m') :
    ∃ t t', m.table? path = some t ∧ t.addColumn c = .ok t' ∧
      m' = m.updateTable path fun _ => t' := by
  obtain ⟨t, ht, h⟩ := bind_eq_ok.1 h
  obtain ⟨t', ht', h⟩ := bind_eq_ok.1 h
  cases h
  exact ⟨t, t', table_eq_ok_iff.1 ht, ht', rfl⟩

theorem hasColumn_of_forM {t : Table} {columns : ColumnSet} {u : PUnit}
    (h : (columns.elems.forM fun name => discard (t.column name)) = .ok u) :
    ∀ name ∈ columns, t.hasColumn name = true := by
  intro name hname
  obtain ⟨c, hc⟩ := discard_eq_ok.1 (forM_eq_ok h name hname)
  rw [Table.hasColumn, Table.column_eq_ok_iff.1 hc]
  rfl

theorem addKey_eq_ok {m m' : Model} {path : TablePath} {columns : ColumnSet}
    {constraint? : Option ConstraintName}
    (h : m.addKey path columns constraint? = .ok m') :
    ∃ t, m.table? path = some t ∧
      (∀ name ∈ columns, t.hasColumn name = true) ∧
      m' = m.updateTable path (·.addKey columns constraint?) := by
  obtain ⟨t, ht, h⟩ := bind_eq_ok.1 h
  obtain ⟨u, hcolumns, h⟩ := bind_eq_ok.1 h
  cases h
  exact ⟨t, table_eq_ok_iff.1 ht, hasColumn_of_forM hcolumns, rfl⟩

theorem addReference_eq_ok {m m' : Model} {source : TablePath}
    {mapping : ReferenceMap} {constraint? : Option ConstraintName}
    {onDelete onUpdate : ReferentialAction}
    (h : m.addReference source mapping constraint? onDelete onUpdate =
      .ok m') :
    (∃ key, m.key? mapping.target mapping.toColumns = some key) ∧
      (∃ t, m.table? source = some t ∧
        ∀ name ∈ mapping.fromColumns, t.hasColumn name = true) ∧
      m' = (m.updateTable source
        (·.addReference (.fresh source mapping onDelete onUpdate)
          constraint?)).updateTable mapping.target fun target =>
            target.updateKey mapping.toColumns fun key =>
              { key with
                referencedBy := key.referencedBy.insert ⟨source, mapping⟩ } := by
  obtain ⟨target, htarget, h⟩ := bind_eq_ok.1 h
  by_cases hcontains : target.keys.contains mapping.toColumns = true
  · rw [if_pos hcontains] at h
    obtain ⟨t, ht, h⟩ := bind_eq_ok.1 h
    obtain ⟨_, hcolumns, h⟩ := bind_eq_ok.1 h
    cases h
    obtain ⟨key, hkey⟩ := SortedMap.contains_iff.1 hcontains
    exact ⟨⟨key, key?_eq_some_iff.2 ⟨target, table_eq_ok_iff.1 htarget, hkey⟩⟩,
      ⟨t, table_eq_ok_iff.1 ht, hasColumn_of_forM hcolumns⟩, rfl⟩
  · rw [if_neg hcontains] at h
    obtain ⟨_, h, _⟩ := bind_eq_ok.1 h
    cases h

namespace Closed

variable {m : Model}

theorem addTable (hm : m.Closed) {schema : String} {t : Table}
    (ht : t.WellFormed ⟨schema, t.name⟩)
    (hlinks : ∀ columns id, ¬t.Links columns id)
    (hreference : ∀ mapping, t.reference? mapping = none)
    {m' : Model} (h : m.addTable schema t = .ok m') : m'.Closed := by
  obtain ⟨s, hs, hnone, rfl⟩ := addTable_eq_ok h
  have hname := hm.schema_name hs
  have habsent : m.table? ⟨schema, t.name⟩ = none := by
    simp [table?, hs, hnone]
  refine hm.of_same_links ?_ ?_ ?_ ?_
  · intro name s' hs'
    rw [schemas_insertTable hs] at hs'
    by_cases heq : name = schema
    · rw [if_pos heq, Option.some.injEq] at hs'
      rw [← hs', heq]
      exact hname
    · rw [if_neg heq] at hs'
      exact hm.schema_name hs'
  · intro path t' ht'
    rw [table?_insertTable hs] at ht'
    by_cases hpath : path = ⟨schema, t.name⟩
    · rw [if_pos hpath, Option.some.injEq] at ht'
      rw [← ht', hpath]
      exact ht
    · rw [if_neg hpath] at ht'
      exact hm.table ht'
  · intro path columns id
    rw [links_iff, links_iff, table?_insertTable hs]
    by_cases hpath : path = ⟨schema, t.name⟩
    · simp [hpath, habsent, hlinks]
    · simp [hpath]
  · intro id
    unfold reference?
    rw [table?_insertTable hs]
    by_cases hpath : id.source = ⟨schema, t.name⟩
    · simp [hpath, habsent, hreference]
    · simp [hpath]

theorem addColumn (hm : m.Closed) {path : TablePath} {c : Column}
    (hc : c.table = path) {m' : Model} (h : m.addColumn path c = .ok m') :
    m'.Closed := by
  obtain ⟨t, t', ht, hadd, rfl⟩ := addColumn_eq_ok h
  have hsame : ∀ s, m.table? path = some s → s = t := by
    intro s hs
    rw [ht, Option.some.injEq] at hs
    exact hs.symm
  obtain ⟨_, heq⟩ := Table.addColumn_eq_ok hadd
  refine hm.updateTable (fun s hs => ?_) (fun s hs columns id => ?_)
    (fun s hs mapping => ?_)
  · exact (hm.table ht).addColumn hc hadd
  · rw [hsame s hs, heq]
    exact Iff.rfl
  · rw [hsame s hs, heq]
    rfl

theorem addKey (hm : m.Closed) {path : TablePath} {columns : ColumnSet}
    {constraint? : Option ConstraintName} {m' : Model}
    (h : m.addKey path columns constraint? = .ok m') : m'.Closed := by
  obtain ⟨t, ht, hcolumns, rfl⟩ := addKey_eq_ok h
  refine hm.updateTable (fun s hs => ?_)
    (fun s hs columns' id => Table.links_addKey ..) (fun s hs mapping => rfl)
  rw [ht, Option.some.injEq] at hs
  subst hs
  exact (hm.table ht).addKey hcolumns constraint?

/-! ## References -/

/-- A reference is entered in its source table and at the key that it leads to,
which may be a key of the source table itself. -/
theorem addReference (hm : m.Closed) {source : TablePath}
    {mapping : ReferenceMap} {constraint? : Option ConstraintName}
    {onDelete onUpdate : ReferentialAction} {m' : Model}
    (h : m.addReference source mapping constraint? onDelete onUpdate =
      .ok m') : m'.Closed := by
  obtain ⟨⟨key, hkey⟩, ⟨t, ht, hcolumns⟩, rfl⟩ := addReference_eq_ok h
  have hextended : ∀ {path : TablePath} {t' : Table},
      (m.updateTable source (·.addReference
        (.fresh source mapping onDelete onUpdate) constraint?)).table? path =
          some t' → t'.WellFormed path := by
    refine wellFormed_updateTable hm.table fun s hs => ?_
    rw [ht, Option.some.injEq] at hs
    subst hs
    exact (hm.table ht).addReference rfl hcolumns constraint?
  refine of_linked ?_ ?_ ?_
  · exact schema_name_updateTable
      (schema_name_updateTable hm.schema_name _ _) _ _
  · refine wellFormed_updateTable hextended fun target htarget => ?_
    exact (hextended htarget).updateKey (fun _ => rfl) (fun _ => rfl)
  · intro path columns id
    rw [reference?_updateKey, isSome_reference?_addReference ht]
    unfold Links
    simp only [key?_updateKey, key?_addReference]
    have hlinked := hm.linked path columns id
    unfold Links at hlinked
    by_cases hplace : path = mapping.target ∧ columns = mapping.toColumns
    · obtain ⟨rfl, rfl⟩ := hplace
      simp only [hkey] at hlinked
      simp only [and_self, if_true, hkey, Option.map_some, Option.some.injEq,
        exists_eq_left', SortedSet.mem_insert] at hlinked ⊢
      rw [hlinked]
      constructor
      · rintro (rfl | ⟨hid, htarget⟩)
        · exact ⟨Or.inr rfl, rfl, rfl⟩
        · exact ⟨Or.inl hid, htarget⟩
      · rintro ⟨hid | rfl, htarget⟩
        · exact Or.inr ⟨hid, htarget⟩
        · exact Or.inl rfl
    · rw [if_neg hplace, hlinked]
      constructor
      · rintro ⟨hid, htarget⟩
        exact ⟨Or.inl hid, htarget⟩
      · rintro ⟨hid | rfl, rfl, rfl⟩
        · exact ⟨hid, rfl, rfl⟩
        · exact absurd ⟨rfl, rfl⟩ hplace

end Closed

end Model

end GovernedCatalog
