import GovernedCatalog.Model.Drop
import GovernedCatalog.Proofs.Ordered.Map
import GovernedCatalog.Proofs.Ordered.Set

/-!
# Look-ups in a model

A model is viewed through three look-ups: of a table by its path, of a key by
its table and columns, and of a reference by its identity.  Every change of a
table and of a model is described by what it does to them.
-/

namespace GovernedCatalog

attribute [ext] UniqueKey Reference ForeignKey Table Schema Model

namespace UniqueKey

@[simp] theorem addConstraint_table (key : UniqueKey)
    (constraint? : Option ConstraintName) :
    (key.addConstraint constraint?).table = key.table := by
  cases constraint? <;> rfl

@[simp] theorem addConstraint_columns (key : UniqueKey)
    (constraint? : Option ConstraintName) :
    (key.addConstraint constraint?).columns = key.columns := by
  cases constraint? <;> rfl

@[simp] theorem addConstraint_referencedBy (key : UniqueKey)
    (constraint? : Option ConstraintName) :
    (key.addConstraint constraint?).referencedBy = key.referencedBy := by
  cases constraint? <;> rfl

end UniqueKey

namespace Reference

@[simp] theorem addConstraint_source (r : Reference)
    (constraint? : Option ConstraintName) :
    (r.addConstraint constraint?).source = r.source := by
  cases constraint? <;> rfl

@[simp] theorem addConstraint_mapping (r : Reference)
    (constraint? : Option ConstraintName) :
    (r.addConstraint constraint?).mapping = r.mapping := by
  cases constraint? <;> rfl

end Reference

namespace Table

/-- The keys of a table by their columns. -/
def key? (t : Table) (columns : ColumnSet) : Option UniqueKey :=
  t.keys.get? columns

theorem key_eq_ok_iff {t : Table} {columns : ColumnSet} {key : UniqueKey} :
    t.key columns = .ok key ↔ t.key? columns = some key := by
  unfold Table.key key?
  cases t.keys.get? columns <;> simp

theorem column_eq_ok_iff {t : Table} {name : String} {c : Column} :
    t.column name = .ok c ↔ t.column? name = some c := by
  unfold Table.column
  cases t.column? name <;> simp

theorem hasColumn_iff {t : Table} {name : String} :
    t.hasColumn name = true ↔ name ∈ t.columns.map Column.name := by
  simp [hasColumn, column?, List.find?_isSome]

theorem column?_eq_some {t : Table} {name : String} {c : Column}
    (h : t.column? name = some c) : c ∈ t.columns ∧ c.name = name := by
  have hname := List.find?_some h
  exact ⟨List.mem_of_find?_eq_some h, by simpa using hname⟩

/-! ## References of a table -/

theorem reference?_addReference (t : Table) (fresh : Reference)
    (constraint? : Option ConstraintName) (mapping : ReferenceMap) :
    (t.addReference fresh constraint?).reference? mapping =
      if mapping = fresh.mapping then
        some (((t.reference? mapping).getD fresh).addConstraint constraint?)
      else t.reference? mapping := by
  unfold reference? addReference
  simp only [SortedMap.get?_modify_getOrInsert]
  by_cases hcolumns : mapping.fromColumns = fresh.mapping.fromColumns
  · cases hfk : t.foreignKeys.get? fresh.mapping.fromColumns <;>
      by_cases hmapping : mapping = fresh.mapping <;>
        simp [hcolumns, hfk, hmapping, ForeignKey.fresh]
  · have hmapping : mapping ≠ fresh.mapping := fun h => hcolumns (h ▸ rfl)
    simp [hcolumns, hmapping]

theorem reference?_updateReference (t : Table) (updated mapping : ReferenceMap)
    (f : Reference → Reference) :
    (t.updateReference updated f).reference? mapping =
      if mapping = updated then (t.reference? mapping).map f
      else t.reference? mapping := by
  unfold reference? updateReference
  simp only [SortedMap.get?_modify]
  by_cases hcolumns : mapping.fromColumns = updated.fromColumns
  · cases hfk : t.foreignKeys.get? updated.fromColumns <;>
      by_cases hmapping : mapping = updated <;>
        simp [hcolumns, hfk, hmapping]
  · have hmapping : mapping ≠ updated := fun h => hcolumns (h ▸ rfl)
    simp [hcolumns, hmapping]

/-! ## Keys of a table -/

@[simp] theorem key?_addKey (t : Table) (columns columns' : ColumnSet)
    (constraint? : Option ConstraintName) :
    (t.addKey columns constraint?).key? columns' =
      if columns' = columns then
        some (((t.key? columns).getD (.fresh t.path columns)).addConstraint
          constraint?)
      else t.key? columns' := by
  simp only [key?, addKey, SortedMap.get?_modify_getOrInsert]

@[simp] theorem key?_updateKey (t : Table) (columns columns' : ColumnSet)
    (f : UniqueKey → UniqueKey) :
    (t.updateKey columns f).key? columns' =
      if columns' = columns then (t.key? columns).map f
      else t.key? columns' := by
  simp [key?, updateKey]

end Table

/-- The schema without its tables. -/
def Schema.emptied (s : Schema) : Schema := { s with tables := ∅ }

namespace Model

/-- The key of a table by its columns. -/
def key? (m : Model) (path : TablePath) (columns : ColumnSet) :
    Option UniqueKey :=
  (m.table? path).bind fun t => t.key? columns

/-- The reference with an identity. -/
def reference? (m : Model) (id : ReferenceId) : Option Reference :=
  (m.table? id.source).bind fun t => t.reference? id.mapping

theorem schema_eq_ok_iff {m : Model} {name : String} {s : Schema} :
    m.schema name = .ok s ↔ m.schemas.get? name = some s := by
  unfold Model.schema
  cases m.schemas.get? name <;> simp

theorem table_eq_ok_iff {m : Model} {path : TablePath} {t : Table} :
    m.table path = .ok t ↔ m.table? path = some t := by
  unfold Model.table table? Model.schema Schema.table
  cases m.schemas.get? path.schema with
  | none => simp [bind, Except.bind]
  | some s =>
      cases hget : s.tables.get? path.table <;>
        simp [bind, Except.bind, hget]

theorem reference_eq_ok_iff {m : Model} {id : ReferenceId} {r : Reference} :
    m.reference id = .ok r ↔ m.reference? id = some r := by
  unfold Model.reference reference?
  cases htable : m.table id.source with
  | error e =>
      cases hview : m.table? id.source with
      | none => simp [bind, Except.bind]
      | some t =>
          rw [table_eq_ok_iff.2 hview] at htable
          cases htable
  | ok t =>
      rw [table_eq_ok_iff.1 htable]
      simp only [bind, Except.bind, Option.bind_some]
      cases t.reference? id.mapping <;> simp

theorem table?_eq_some_iff {m : Model} {path : TablePath} {t : Table} :
    m.table? path = some t ↔
      ∃ s, m.schemas.get? path.schema = some s ∧
        s.tables.get? path.table = some t := by
  simp [table?, Option.bind_eq_some_iff]

theorem key?_eq_some_iff {m : Model} {path : TablePath} {columns : ColumnSet}
    {key : UniqueKey} :
    m.key? path columns = some key ↔
      ∃ t, m.table? path = some t ∧ t.key? columns = some key := by
  simp [key?, Option.bind_eq_some_iff]

theorem reference?_eq_some_iff {m : Model} {id : ReferenceId}
    {r : Reference} :
    m.reference? id = some r ↔
      ∃ t, m.table? id.source = some t ∧ t.reference? id.mapping = some r := by
  simp [reference?, Option.bind_eq_some_iff]

/-- Models with the same schemas, apart from their tables, and the same tables
are equal. -/
theorem eq_of_tables {m n : Model}
    (hschema : ∀ name, (m.schemas.get? name).map Schema.emptied =
      (n.schemas.get? name).map Schema.emptied)
    (htable : ∀ path, m.table? path = n.table? path)
    (hsystem : m.systemSchema = n.systemSchema)
    (hannotations : m.annotations = n.annotations) (hacls : m.acls = n.acls) :
    m = n := by
  refine Model.ext (SortedMap.ext_get? fun name => ?_) hsystem hannotations hacls
  have hname := hschema name
  cases hs : m.schemas.get? name with
  | none =>
      rw [hs, Option.map_none] at hname
      exact (Option.map_eq_none_iff.1 hname.symm).symm
  | some s =>
      rw [hs, Option.map_some] at hname
      obtain ⟨s', hs', heq⟩ := Option.map_eq_some_iff.1 hname.symm
      obtain ⟨hname', hcomment, _, hannotations', hacls'⟩ := Schema.ext_iff.1 heq
      have htables : s.tables = s'.tables := by
        refine SortedMap.ext_get? fun table => ?_
        have hget := htable ⟨name, table⟩
        simpa [table?, hs, hs'] using hget
      rw [hs']
      exact congrArg some (Schema.ext hname'.symm hcomment.symm htables
        hannotations'.symm hacls'.symm)

/-! ## Changes of one table -/

theorem schemas_updateTable (m : Model) (path : TablePath) (f : Table → Table)
    (name : String) :
    (m.updateTable path f).schemas.get? name =
      if name = path.schema then
        (m.schemas.get? name).map fun s =>
          { s with tables := s.tables.modify path.table f }
      else m.schemas.get? name := by
  unfold updateTable updateSchema
  by_cases hname : name = path.schema <;> simp [hname]

theorem emptied_updateTable (m : Model) (path : TablePath) (f : Table → Table)
    (name : String) :
    ((m.updateTable path f).schemas.get? name).map Schema.emptied =
      (m.schemas.get? name).map Schema.emptied := by
  rw [schemas_updateTable]
  by_cases hname : name = path.schema
  · rw [if_pos hname, Option.map_map]
    rfl
  · rw [if_neg hname]

theorem table?_updateSchema (m : Model) (name : String) {f : Schema → Schema}
    (htables : ∀ s, (f s).tables = s.tables) :
    (m.updateSchema name f).table? = m.table? := by
  funext path
  unfold table? updateSchema
  rw [SortedMap.get?_modify]
  by_cases hname : path.schema = name
  · rw [if_pos hname, hname]
    cases m.schemas.get? name <;> simp [htables]
  · rw [if_neg hname]

@[simp] theorem table?_updateTable (m : Model) (path path' : TablePath)
    (f : Table → Table) :
    (m.updateTable path f).table? path' =
      if path' = path then (m.table? path).map f else m.table? path' := by
  unfold table?
  rw [schemas_updateTable]
  cases path with
  | mk schema table =>
      cases path' with
      | mk schema' table' =>
          by_cases hschema : schema' = schema
          · subst hschema
            cases m.schemas.get? schema' <;>
              by_cases htable : table' = table <;> simp [htable]
          · simp [hschema]

theorem table?_updateTable_of_none {m : Model} {path' : TablePath}
    (h : m.table? path' = none) (path : TablePath) (f : Table → Table) :
    (m.updateTable path f).table? path' = none := by
  rw [table?_updateTable]
  by_cases hpath : path' = path
  · rw [if_pos hpath, ← hpath, h]
    rfl
  · rw [if_neg hpath, h]

theorem key?_updateTable (m : Model) (path path' : TablePath)
    (f : Table → Table) (columns : ColumnSet) :
    (m.updateTable path f).key? path' columns =
      if path' = path then (m.table? path).bind fun t => (f t).key? columns
      else m.key? path' columns := by
  unfold key?
  rw [table?_updateTable]
  by_cases hpath : path' = path
  · subst hpath
    cases m.table? path' <;> simp
  · simp [hpath]

theorem reference?_updateTable (m : Model) (path : TablePath)
    (f : Table → Table) (id : ReferenceId) :
    (m.updateTable path f).reference? id =
      if id.source = path then
        (m.table? path).bind fun t => (f t).reference? id.mapping
      else m.reference? id := by
  unfold reference?
  rw [table?_updateTable]
  by_cases hpath : id.source = path
  · subst hpath
    cases m.table? id.source <;> simp
  · simp [hpath]

theorem key?_updateKey (m : Model) (path path' : TablePath)
    (columns columns' : ColumnSet) (f : UniqueKey → UniqueKey) :
    (m.updateTable path (·.updateKey columns f)).key? path' columns' =
      if path' = path ∧ columns' = columns then (m.key? path columns).map f
      else m.key? path' columns' := by
  rw [key?_updateTable]
  by_cases hpath : path' = path
  · subst hpath
    unfold key?
    by_cases hcolumns : columns' = columns <;>
      cases m.table? path' <;> simp [hcolumns]
  · simp [hpath]

theorem reference?_updateKey (m : Model) (path : TablePath)
    (columns : ColumnSet) (f : UniqueKey → UniqueKey) (id : ReferenceId) :
    (m.updateTable path (·.updateKey columns f)).reference? id =
      m.reference? id := by
  rw [reference?_updateTable]
  by_cases hpath : id.source = path
  · rw [if_pos hpath, ← hpath]
    rfl
  · rw [if_neg hpath]

theorem key?_addReference (m : Model) (source : TablePath) (fresh : Reference)
    (constraint? : Option ConstraintName) (path : TablePath)
    (columns : ColumnSet) :
    (m.updateTable source (·.addReference fresh constraint?)).key? path
      columns = m.key? path columns := by
  rw [key?_updateTable]
  by_cases hpath : path = source
  · rw [if_pos hpath, hpath]
    rfl
  · rw [if_neg hpath]

theorem key?_addKey {m : Model} {path : TablePath} {t : Table}
    (ht : m.table? path = some t) (columns : ColumnSet)
    (constraint? : Option ConstraintName) (path' : TablePath)
    (columns' : ColumnSet) :
    (m.updateTable path (·.addKey columns constraint?)).key? path' columns' =
      if path' = path ∧ columns' = columns then
        some (((m.key? path' columns').getD (.fresh t.path columns)).addConstraint
          constraint?)
      else m.key? path' columns' := by
  rw [key?_updateTable]
  by_cases hpath : path' = path
  · subst hpath
    simp only [if_pos, ht, Option.bind_some, key?, Table.key?_addKey, true_and]
    by_cases hcolumns : columns' = columns <;> simp [hcolumns]
  · simp [hpath]

theorem reference?_addReference {m : Model} {source : TablePath} {t : Table}
    (ht : m.table? source = some t) (fresh : Reference)
    (constraint? : Option ConstraintName) (id : ReferenceId) :
    (m.updateTable source (·.addReference fresh constraint?)).reference? id =
      if id = ⟨source, fresh.mapping⟩ then
        some (((m.reference? id).getD fresh).addConstraint constraint?)
      else m.reference? id := by
  rw [reference?_updateTable]
  cases id with
  | mk source' mapping =>
      by_cases hsource : source' = source
      · subst hsource
        simp only [if_pos, ht, Option.bind_some, reference?,
          Table.reference?_addReference, ReferenceId.mk.injEq, true_and]
      · simp [hsource]

theorem isSome_reference?_addReference {m : Model} {source : TablePath}
    {t : Table} (ht : m.table? source = some t) (fresh : Reference)
    (constraint? : Option ConstraintName) (id : ReferenceId) :
    ((m.updateTable source (·.addReference fresh constraint?)).reference?
        id).isSome = true ↔
      (m.reference? id).isSome = true ∨ id = ⟨source, fresh.mapping⟩ := by
  rw [reference?_addReference ht]
  by_cases hid : id = ⟨source, fresh.mapping⟩ <;> simp [hid]

end Model

end GovernedCatalog
