import GovernedCatalog.Model.Entity
import GovernedCatalog.Proofs.Model.Addition

/-!
# Overlays keep a model closed

Annotations, access lists, bindings and comments are no part of what a closed
model is about, so they are replaced freely.
-/

namespace GovernedCatalog

namespace Table.WellFormed

variable {t : Table} {path : TablePath}

/-- A table with the same structure. -/
theorem congr (ht : t.WellFormed path) {t' : Table} (hpath : t'.path = t.path)
    (hcolumns : t'.columns = t.columns) (hkeys : t'.keys = t.keys)
    (hforeignKeys : t'.foreignKeys = t.foreignKeys) : t'.WellFormed path where
  path_eq := hpath.trans ht.path_eq
  column_table := hcolumns ▸ ht.column_table
  column_names := hcolumns ▸ ht.column_names
  key := by
    unfold key?
    rw [hkeys]
    exact ht.key
  foreignKey := hforeignKeys ▸ ht.foreignKey
  key_columns := by
    unfold key? hasColumn column?
    rw [hkeys, hcolumns]
    exact ht.key_columns
  foreignKey_columns := by
    unfold hasColumn column?
    rw [hforeignKeys, hcolumns]
    exact ht.foreignKey_columns
  foreignKey_nonempty := hforeignKeys ▸ ht.foreignKey_nonempty

theorem updateColumn (ht : t.WellFormed path) (name : String)
    {f : Column → Column} (htable : ∀ c, (f c).table = c.table)
    (hname : ∀ c, (f c).name = c.name) :
    (t.updateColumn name f).WellFormed path := by
  have htables : ∀ c : Column,
      (if c.name == name then f c else c).table = c.table := by
    intro c
    split
    · exact htable c
    · rfl
  have hnames : ∀ c : Column,
      (if c.name == name then f c else c).name = c.name := by
    intro c
    split
    · exact hname c
    · rfl
  have hcolumns : (t.updateColumn name f).columns.map Column.name =
      t.columns.map Column.name := by
    simp only [Table.updateColumn, List.map_map, Function.comp_def, hnames]
  have hhas : (t.updateColumn name f).hasColumn = t.hasColumn := by
    funext column
    rw [Bool.eq_iff_iff, hasColumn_iff, hasColumn_iff, hcolumns]
  exact
    { path_eq := ht.path_eq
      column_table := by
        intro c hc
        obtain ⟨d, hd, rfl⟩ := List.mem_map.1 hc
        rw [htables]
        exact ht.column_table d hd
      column_names := hcolumns ▸ ht.column_names
      key := ht.key
      foreignKey := ht.foreignKey
      key_columns := hhas ▸ ht.key_columns
      foreignKey_columns := hhas ▸ ht.foreignKey_columns
      foreignKey_nonempty := ht.foreignKey_nonempty }

end Table.WellFormed

namespace Model.Closed

variable {m : Model}

theorem updateSchema (hm : m.Closed) (name : String) {f : Schema → Schema}
    (hname : ∀ s, (f s).name = s.name)
    (htables : ∀ s, (f s).tables = s.tables) :
    (m.updateSchema name f).Closed := by
  refine hm.of_same_tables (fun {name' s} hs => ?_) ?_
  · unfold Model.updateSchema at hs
    rw [SortedMap.get?_modify] at hs
    by_cases heq : name' = name
    · rw [if_pos heq] at hs
      obtain ⟨old, hold, rfl⟩ := Option.map_eq_some_iff.1 hs
      rw [hname, hm.schema_name hold, heq]
    · rw [if_neg heq] at hs
      exact hm.schema_name hs
  · exact table?_updateSchema m name htables

/-- A change of one table that keeps its structure as it is. -/
theorem updateTable_of_same (hm : m.Closed) (path : TablePath)
    {f : Table → Table} (hpath : ∀ t, (f t).path = t.path)
    (hcolumns : ∀ t, (f t).columns = t.columns)
    (hkeys : ∀ t, (f t).keys = t.keys)
    (hforeignKeys : ∀ t, (f t).foreignKeys = t.foreignKeys) :
    (m.updateTable path f).Closed := by
  refine hm.updateTable (fun t ht => ?_) (fun t _ columns id => ?_)
    fun t _ mapping => ?_
  · exact (hm.table ht).congr (hpath t) (hcolumns t) (hkeys t) (hforeignKeys t)
  · unfold Table.Links Table.key?
    rw [hkeys]
  · unfold Table.reference?
    rw [hforeignKeys]

theorem updateColumn (hm : m.Closed) (path : TablePath) (name : String)
    {f : Column → Column} (htable : ∀ c, (f c).table = c.table)
    (hname : ∀ c, (f c).name = c.name) :
    (m.updateColumn path name f).Closed :=
  hm.updateTable (fun _ ht => (hm.table ht).updateColumn name htable hname)
    (fun _ _ _ _ => Iff.rfl) fun _ _ _ => rfl

theorem updateKey (hm : m.Closed) (path : TablePath) (columns : ColumnSet)
    {f : UniqueKey → UniqueKey} (htable : ∀ key, (f key).table = key.table)
    (hcolumns : ∀ key, (f key).columns = key.columns)
    (hreferencedBy : ∀ key, (f key).referencedBy = key.referencedBy) :
    (m.updateKey path columns f).Closed := by
  refine hm.updateTable (fun t ht => (hm.table ht).updateKey htable hcolumns)
    (fun t _ columns' id => Table.links_updateKey fun key => ?_)
    fun _ _ _ => rfl
  rw [hreferencedBy]

theorem updateReference (hm : m.Closed) (source : TablePath)
    (mapping : ReferenceMap) {f : Reference → Reference}
    (hsource : ∀ r, (f r).source = r.source)
    (hmapping : ∀ r, (f r).mapping = r.mapping) :
    (m.updateTable source (·.updateReference mapping f)).Closed := by
  refine hm.updateTable (fun t ht => ?_) (fun t _ columns id => Iff.rfl)
    (fun t _ mapping' => ?_)
  · exact (hm.table ht).updateReference hsource hmapping
  · rw [Table.reference?_updateReference]
    by_cases heq : mapping' = mapping <;> simp [heq]

/-! ## Overlays -/

theorem setAnnotations (hm : m.Closed) (a : Address)
    (annotations : Annotations) : (m.setAnnotations a annotations).Closed := by
  cases a with
  | catalog => exact hm.of_same_tables hm.schema_name rfl
  | schema name => exact hm.updateSchema name (fun _ => rfl) fun _ => rfl
  | table path =>
      exact hm.updateTable_of_same path (fun _ => rfl) (fun _ => rfl)
        (fun _ => rfl) fun _ => rfl
  | column path name => exact hm.updateColumn path name (fun _ => rfl) fun _ => rfl
  | key path columns =>
      exact hm.updateKey path columns (fun _ => rfl) (fun _ => rfl) fun _ => rfl
  | foreignKey path columns => exact hm
  | reference id =>
      exact hm.updateReference id.source id.mapping (fun _ => rfl) fun _ => rfl

theorem setAcls (hm : m.Closed) (a : Address) (acls : Acls) :
    (m.setAcls a acls).Closed := by
  cases a with
  | catalog => exact hm.of_same_tables hm.schema_name rfl
  | schema name => exact hm.updateSchema name (fun _ => rfl) fun _ => rfl
  | table path =>
      exact hm.updateTable_of_same path (fun _ => rfl) (fun _ => rfl)
        (fun _ => rfl) fun _ => rfl
  | column path name => exact hm.updateColumn path name (fun _ => rfl) fun _ => rfl
  | key path columns => exact hm
  | foreignKey path columns => exact hm
  | reference id =>
      exact hm.updateReference id.source id.mapping (fun _ => rfl) fun _ => rfl

theorem setBindings (hm : m.Closed) (a : Address) (bindings : Bindings) :
    (m.setBindings a bindings).Closed := by
  cases a with
  | table path =>
      exact hm.updateTable_of_same path (fun _ => rfl) (fun _ => rfl)
        (fun _ => rfl) fun _ => rfl
  | column path name => exact hm.updateColumn path name (fun _ => rfl) fun _ => rfl
  | reference id =>
      exact hm.updateReference id.source id.mapping (fun _ => rfl) fun _ => rfl
  | catalog => exact hm
  | schema name => exact hm
  | key path columns => exact hm
  | foreignKey path columns => exact hm

end Model.Closed

end GovernedCatalog

/-!
## What constraints leave on a model

The constraints of a database leave their names on keys, and their names and
actions on references.  Overlays do not touch any of these.
-/

namespace GovernedCatalog

/-- What the constraints of a reference leave on it. -/
structure Imprint where
  constraints : SortedSet ConstraintName
  onDelete : Option ReferentialAction
  onUpdate : Option ReferentialAction

def Reference.imprint (r : Reference) : Imprint :=
  ⟨r.constraints, some r.onDelete, some r.onUpdate⟩

namespace Imprint

def addConstraint (i : Imprint) (c : ConstraintName) : Imprint :=
  { i with constraints := i.constraints.insert c }

end Imprint

namespace Model

/-- The names of a key. -/
def keyNames? (m : Model) (path : TablePath) (columns : ColumnSet) :
    Option (SortedSet ConstraintName) :=
  (m.key? path columns).map UniqueKey.constraints

def imprint? (m : Model) (id : ReferenceId) : Option Imprint :=
  (m.reference? id).map Reference.imprint

/-- Constraints left the same on both models. -/
structure SameImprints (m m' : Model) : Prop where
  keyNames : ∀ path columns, m'.keyNames? path columns = m.keyNames? path columns
  imprint : ∀ id, m'.imprint? id = m.imprint? id

namespace SameImprints

variable {m m' : Model}

theorem refl (m : Model) : SameImprints m m := ⟨fun _ _ => rfl, fun _ => rfl⟩

theorem of_same_tables (h : m'.table? = m.table?) : SameImprints m m' where
  keyNames path columns := by
    unfold keyNames? key?
    rw [h]
  imprint id := by
    unfold imprint? reference?
    rw [h]

theorem updateTable (path : TablePath) {f : Table → Table}
    (hkeys : ∀ t columns, ((f t).key? columns).map UniqueKey.constraints =
      (t.key? columns).map UniqueKey.constraints)
    (hreferences : ∀ t mapping, ((f t).reference? mapping).map Reference.imprint =
      (t.reference? mapping).map Reference.imprint) :
    SameImprints m (m.updateTable path f) where
  keyNames path' columns := by
    unfold keyNames?
    rw [key?_updateTable]
    by_cases hpath : path' = path
    · rw [if_pos hpath, hpath, key?, Option.map_bind, Option.map_bind]
      exact congrArg _ (funext fun t => hkeys t columns)
    · rw [if_neg hpath]
  imprint id := by
    unfold imprint?
    rw [reference?_updateTable]
    by_cases hpath : id.source = path
    · rw [if_pos hpath, ← hpath, reference?, Option.map_bind, Option.map_bind]
      exact congrArg _ (funext fun t => hreferences t id.mapping)
    · rw [if_neg hpath]

/-- A change of a table that keeps its keys and foreign keys. -/
theorem updateTable_of_same (path : TablePath) {f : Table → Table}
    (hkeys : ∀ t, (f t).keys = t.keys)
    (hforeignKeys : ∀ t, (f t).foreignKeys = t.foreignKeys) :
    SameImprints m (m.updateTable path f) := by
  apply updateTable
  · intro t columns
    unfold Table.key?
    rw [hkeys]
  · intro t mapping
    unfold Table.reference?
    rw [hforeignKeys]

theorem updateKey (path : TablePath) (columns : ColumnSet)
    {f : UniqueKey → UniqueKey}
    (hf : ∀ key, (f key).constraints = key.constraints) :
    SameImprints m (m.updateKey path columns f) := by
  apply updateTable
  · intro t columns'
    rw [Table.key?_updateKey]
    by_cases hcolumns : columns' = columns
    · rw [if_pos hcolumns, hcolumns, Option.map_map]
      exact congrArg (fun g => (t.key? columns).map g) (funext hf)
    · rw [if_neg hcolumns]
  · intro t mapping
    rfl

theorem updateReference (path : TablePath) (mapping : ReferenceMap)
    {f : Reference → Reference} (hf : ∀ r, (f r).imprint = r.imprint) :
    SameImprints m (m.updateTable path (·.updateReference mapping f)) := by
  apply updateTable
  · intro t columns
    rfl
  · intro t mapping'
    rw [Table.reference?_updateReference]
    by_cases hmapping : mapping' = mapping
    · rw [if_pos hmapping, Option.map_map]
      exact congrArg (fun g => (t.reference? mapping').map g) (funext hf)
    · rw [if_neg hmapping]

theorem updateSchema (name : String) {f : Schema → Schema}
    (hf : ∀ s, (f s).tables = s.tables) :
    SameImprints m (m.updateSchema name f) := by
  apply of_same_tables
  funext path
  unfold table? Model.updateSchema
  rw [SortedMap.get?_modify]
  by_cases hname : path.schema = name
  · rw [if_pos hname, hname]
    cases m.schemas.get? name <;> simp [hf]
  · rw [if_neg hname]

/-! ### Overlays -/

theorem setAnnotations (a : Address) (annotations : Annotations) :
    SameImprints m (m.setAnnotations a annotations) := by
  cases a with
  | catalog => exact of_same_tables rfl
  | schema name => exact updateSchema name fun _ => rfl
  | table path => exact updateTable_of_same path (fun _ => rfl) fun _ => rfl
  | column path name => exact updateTable_of_same path (fun _ => rfl) fun _ => rfl
  | key path columns => exact updateKey path columns fun _ => rfl
  | foreignKey path columns => exact refl m
  | reference id => exact updateReference id.source id.mapping fun _ => rfl

theorem setAcls (a : Address) (acls : Acls) :
    SameImprints m (m.setAcls a acls) := by
  cases a with
  | catalog => exact of_same_tables rfl
  | schema name => exact updateSchema name fun _ => rfl
  | table path => exact updateTable_of_same path (fun _ => rfl) fun _ => rfl
  | column path name => exact updateTable_of_same path (fun _ => rfl) fun _ => rfl
  | reference id => exact updateReference id.source id.mapping fun _ => rfl
  | key path columns => exact refl m
  | foreignKey path columns => exact refl m

theorem setBindings (a : Address) (bindings : Bindings) :
    SameImprints m (m.setBindings a bindings) := by
  cases a with
  | table path => exact updateTable_of_same path (fun _ => rfl) fun _ => rfl
  | column path name => exact updateTable_of_same path (fun _ => rfl) fun _ => rfl
  | reference id => exact updateReference id.source id.mapping fun _ => rfl
  | catalog => exact refl m
  | schema name => exact refl m
  | key path columns => exact refl m
  | foreignKey path columns => exact refl m

end SameImprints

end Model

end GovernedCatalog
