import GovernedCatalog.Model.Entity
import GovernedCatalog.Proofs.Model.Closed

/-!
# Removing parts of a model

The parts of a model are the entities with rows in storage that can be removed.
A removal says which parts go away, and takes with each part the ones that it
owns.  What is left of a model is all that the removal does not name, as it was,
except that keys forget the references that went away and foreign keys without
a reference go away too.
-/

namespace GovernedCatalog

/-- An entity that can be removed, by its names. -/
inductive Part where
  | schema (name : String)
  | table (path : TablePath)
  | column (table : TablePath) (name : String)
  | key (table : TablePath) (columns : ColumnSet)
  | reference (id : ReferenceId)
  deriving DecidableEq

namespace Part

def address : Part → Address
  | schema name => .schema name
  | table path => .table path
  | column path name => .column path name
  | key path columns => .key path columns
  | reference id => .reference id

/-- The part that a part is owned by. -/
def owner? : Part → Option Part
  | schema _ => none
  | table path => some (schema path.schema)
  | column path _ | key path _ => some (table path)
  | reference id => some (table id.source)

/-- The schema that the part is in. -/
def schemaName : Part → String
  | schema name => name
  | table path | column path _ | key path _ => path.schema
  | reference id => id.source.schema

/-- The table that the part is or is in. -/
def tablePath? : Part → Option TablePath
  | schema _ => none
  | table path | column path _ | key path _ => some path
  | reference id => some id.source

theorem schemaName_of_tablePath? {p : Part} {path : TablePath}
    (h : p.tablePath? = some path) : p.schemaName = path.schema := by
  cases p <;> cases h <;> rfl

theorem eq_schema_of_tablePath? {p : Part} (h : p.tablePath? = none) :
    p = schema p.schemaName := by
  cases p <;> cases h
  rfl

/-- The rows of the part in storage, which are found by its names alone. -/
def storageKey : Part → StorageKey
  | schema name => (Schema.fresh name).storageKey
  | table path => (Table.fresh path.schema path.table .table).storageKey
  | column path name => (Column.stored path name 0 .text none).storageKey
  | key path columns => (UniqueKey.fresh path columns).storageKey
  | reference id =>
      (Reference.fresh id.source id.mapping .noAction .noAction).storageKey

end Part

/-- Parts that go away, each with the parts that it owns. -/
structure Removal where
  removes : Part → Bool
  owned : ∀ {p q : Part}, p.owner? = some q → removes q = true →
    removes p = true

namespace Removal

instance : Union Removal where
  union r s :=
    { removes := fun p => r.removes p || s.removes p
      owned := by
        intro p q howner hremoves
        rcases Bool.or_eq_true_iff.1 hremoves with hr | hs
        · simp [r.owned howner hr]
        · simp [s.owned howner hs] }

@[simp] theorem removes_union (r s : Removal) (p : Part) :
    (r ∪ s).removes p = (r.removes p || s.removes p) := rfl

instance : EmptyCollection Removal where
  emptyCollection := ⟨fun _ => false, fun _ h => h⟩

theorem ext_removes {r s : Removal} (h : ∀ p, r.removes p = s.removes p) :
    r = s := by
  cases r
  cases s
  congr
  exact funext h

/-- All parts that one of the removals removes. -/
def all (removals : List Removal) : Removal := removals.foldr (· ∪ ·) ∅

theorem removes_all_map (f : β → Removal) (l : List β) (p : Part) :
    (all (l.map f)).removes p = l.any fun x => (f x).removes p := by
  induction l with
  | nil => rfl
  | cons x rest ih =>
      rw [List.any_cons, ← ih]
      rfl

/-- A part and all that it owns. -/
def within (p : Part) : Removal where
  removes q :=
    decide (q = p ∨ q.owner? = some p ∨ q.owner?.bind Part.owner? = some p)
  owned := by
    intro q q' howner hremoves
    rw [decide_eq_true_iff] at hremoves ⊢
    rw [howner]
    rcases hremoves with rfl | hremoves | hremoves
    · exact Or.inr (Or.inl rfl)
    · exact Or.inr (Or.inr hremoves)
    · -- Schemas are the owners of owners, and have none themselves.
      obtain ⟨owner, hq', howner'⟩ := Option.bind_eq_some_iff.1 hremoves
      cases q <;> cases howner <;> cases hq' <;> cases howner'

@[simp] theorem removes_within_schema (name : String) (p : Part) :
    (within (.schema name)).removes p = decide (p.schemaName = name) := by
  refine decide_eq_decide.2 ?_
  cases p <;> simp [Part.owner?, Part.schemaName]

@[simp] theorem removes_within_table (path : TablePath) (p : Part) :
    (within (.table path)).removes p = decide (p.tablePath? = some path) := by
  refine decide_eq_decide.2 ?_
  cases p <;> simp [Part.owner?, Part.tablePath?]

@[simp] theorem removes_within_column (path : TablePath) (name : String)
    (p : Part) :
    (within (.column path name)).removes p = decide (p = .column path name) := by
  cases p <;> simp [within, Part.owner?]

@[simp] theorem removes_within_key (path : TablePath) (columns : ColumnSet)
    (p : Part) :
    (within (.key path columns)).removes p =
      decide (p = .key path columns) := by
  cases p <;> simp [within, Part.owner?]

@[simp] theorem removes_within_reference (id : ReferenceId) (p : Part) :
    (within (.reference id)).removes p = decide (p = .reference id) := by
  cases p <;> simp [within, Part.owner?]

/-- Some references. -/
def references (f : ReferenceId → Bool) : Removal where
  removes
    | .reference id => f id
    | _ => false
  owned := by
    intro p q howner hremoves
    cases p <;> cases q <;> simp_all [Part.owner?]

end Removal

namespace UniqueKey

/-- The key without removed references. -/
def without (key : UniqueKey) (r : Removal) : UniqueKey :=
  { key with
    referencedBy := key.referencedBy.filter fun id =>
      !r.removes (.reference id) }

theorem without_without (key : UniqueKey) (r s : Removal) :
    (key.without r).without s = key.without (r ∪ s) := by
  unfold without
  congr 1
  refine SortedSet.ext_mem fun id => ?_
  simp [and_assoc]

theorem without_of_keeps (key : UniqueKey) {r : Removal}
    (h : ∀ id ∈ key.referencedBy, r.removes (.reference id) = false) :
    key.without r = key := by
  refine UniqueKey.ext rfl rfl rfl rfl rfl (SortedSet.ext_mem fun id => ?_)
  unfold without
  rw [SortedSet.mem_filter]
  exact and_iff_left_of_imp fun hid => by simp [h id hid]

end UniqueKey

namespace ForeignKey

def without (fk : ForeignKey) (r : Removal) : ForeignKey :=
  { fk with
    references := fk.references.filter fun mapping _ =>
      !r.removes (.reference ⟨fk.table, mapping⟩) }

theorem without_without (fk : ForeignKey) (r s : Removal) :
    (fk.without r).without s = fk.without (r ∪ s) := by
  unfold without
  congr 1
  refine SortedMap.ext_get? fun mapping => ?_
  simp [Option.filter_filter]

theorem get?_without (fk : ForeignKey) (r : Removal) (mapping : ReferenceMap) :
    (fk.without r).references.get? mapping =
      if r.removes (.reference ⟨fk.table, mapping⟩) = true then none
      else fk.references.get? mapping := by
  unfold without
  rw [SortedMap.get?_filter]
  cases fk.references.get? mapping <;>
    by_cases hr : r.removes (.reference ⟨fk.table, mapping⟩) = true <;>
      simp [hr]

theorem without_of_keeps (fk : ForeignKey) {r : Removal}
    (h : ∀ mapping, r.removes (.reference ⟨fk.table, mapping⟩) = false) :
    fk.without r = fk := by
  refine ForeignKey.ext rfl rfl (SortedMap.ext_get? fun mapping => ?_)
  rw [get?_without, h]
  exact if_neg Bool.false_ne_true

theorem isEmpty_without_union {fk : ForeignKey} {r : Removal} (s : Removal)
    (h : (fk.without r).references.isEmpty = true) :
    (fk.without (r ∪ s)).references.isEmpty = true := by
  rw [SortedMap.isEmpty_iff] at h ⊢
  intro mapping
  rw [← without_without, get?_without, h, ite_self]

end ForeignKey

namespace Table

/-- The table without its removed columns, keys and references, and without
foreign keys that have no reference left. -/
def without (t : Table) (r : Removal) : Table :=
  { t with
    columns := t.columns.filter fun c => !r.removes (.column t.path c.name)
    keys := (t.keys.filter fun columns _ =>
      !r.removes (.key t.path columns)).mapValues fun _ key => key.without r
    foreignKeys := (t.foreignKeys.mapValues fun _ fk => fk.without r).filter
      fun _ fk => !fk.references.isEmpty }

@[simp] theorem path_without (t : Table) (r : Removal) :
    (t.without r).path = t.path := rfl

theorem key?_without (t : Table) (r : Removal) (columns : ColumnSet) :
    (t.without r).key? columns =
      if r.removes (.key t.path columns) = true then none
      else (t.key? columns).map (·.without r) := by
  unfold key? without
  rw [SortedMap.get?_mapValues, SortedMap.get?_filter]
  cases t.keys.get? columns <;>
    by_cases hr : r.removes (.key t.path columns) = true <;> simp [hr]

theorem foreignKeys_without (t : Table) (r : Removal) (columns : ColumnSet) :
    (t.without r).foreignKeys.get? columns =
      ((t.foreignKeys.get? columns).map (·.without r)).filter fun fk =>
        !fk.references.isEmpty := by
  unfold without
  rw [SortedMap.get?_filter, SortedMap.get?_mapValues]

theorem without_without (t : Table) (r s : Removal) :
    (t.without r).without s = t.without (r ∪ s) := by
  refine Table.ext rfl rfl rfl rfl ?_ ?_ ?_ rfl rfl rfl
  · simp [without, List.filter_filter, Bool.and_comm, Table.path]
  · refine SortedMap.ext_get? fun columns => ?_
    change ((t.without r).without s).key? columns =
      (t.without (r ∪ s)).key? columns
    simp only [key?_without, path_without, Removal.removes_union]
    cases t.key? columns with
    | none => simp
    | some key =>
        by_cases hr : r.removes (.key t.path columns) = true <;>
          by_cases hs : s.removes (.key t.path columns) = true <;>
            simp [hr, hs, key.without_without]
  · refine SortedMap.ext_get? fun columns => ?_
    simp only [foreignKeys_without]
    cases t.foreignKeys.get? columns with
    | none => rfl
    | some fk =>
        cases hempty : (fk.without r).references.isEmpty with
        | true =>
            have hunion := ForeignKey.isEmpty_without_union s hempty
            simp [Option.filter_some, hempty, hunion]
        | false => simp [Option.filter_some, hempty, fk.without_without]

theorem hasColumn_without (t : Table) (r : Removal) (name : String) :
    (t.without r).hasColumn name = true ↔
      t.hasColumn name = true ∧ r.removes (.column t.path name) = false := by
  simp only [hasColumn_iff, without, List.mem_map, List.mem_filter,
    Bool.not_eq_true']
  constructor
  · rintro ⟨c, ⟨hmem, hkept⟩, rfl⟩
    exact ⟨⟨c, hmem, rfl⟩, hkept⟩
  · rintro ⟨⟨c, hmem, rfl⟩, hkept⟩
    exact ⟨c, ⟨hmem, hkept⟩, rfl⟩

theorem columns_of_keeps {t : Table} {r : Removal}
    (h : ∀ name, r.removes (.column t.path name) = false) :
    (t.without r).columns = t.columns :=
  List.filter_eq_self.2 fun c _ => by simp [h]

theorem keys_of_keeps {t : Table} {r : Removal}
    (hkeys : ∀ columns, r.removes (.key t.path columns) = false)
    (hlinks : ∀ {columns key}, t.key? columns = some key →
      ∀ id ∈ key.referencedBy, r.removes (.reference id) = false) :
    (t.without r).keys = t.keys := by
  refine SortedMap.ext_get? fun columns => ?_
  change (t.without r).key? columns = t.key? columns
  rw [key?_without, hkeys, if_neg Bool.false_ne_true]
  cases hkey : t.key? columns with
  | none => rfl
  | some key => exact congrArg some (key.without_of_keeps (hlinks hkey))

theorem WellFormed.foreignKeys_of_keeps {t : Table} {path : TablePath}
    (ht : t.WellFormed path) {r : Removal}
    (h : ∀ mapping, r.removes (.reference ⟨path, mapping⟩) = false) :
    (t.without r).foreignKeys = t.foreignKeys := by
  refine SortedMap.ext_get? fun columns => ?_
  rw [foreignKeys_without]
  cases hfk : t.foreignKeys.get? columns with
  | none => rfl
  | some fk =>
      have hsame : fk.without r = fk := fk.without_of_keeps fun mapping => by
        rw [(ht.foreignKey hfk).table_eq, h]
      rw [Option.map_some, hsame, Option.filter_some,
        ht.foreignKey_nonempty hfk]
      rfl

theorem Named.reference?_without {t : Table} {path : TablePath}
    (ht : t.Named path) (r : Removal) (mapping : ReferenceMap) :
    (t.without r).reference? mapping =
      if r.removes (.reference ⟨path, mapping⟩) = true then none
      else t.reference? mapping := by
  unfold reference?
  rw [foreignKeys_without]
  cases hfk : t.foreignKeys.get? mapping.fromColumns with
  | none => simp
  | some fk =>
      rw [Option.bind_some, ← (ht.foreignKey hfk).table_eq,
        ← fk.get?_without r mapping, Option.map_some, Option.filter_some]
      cases hempty : (fk.without r).references.isEmpty with
      | true => simp [SortedMap.get?_of_isEmpty hempty]
      | false => simp

theorem Named.without {t : Table} {path : TablePath} (ht : t.Named path)
    (r : Removal) : (t.without r).Named path where
  path_eq := ht.path_eq
  column_table := fun c hc => ht.column_table c (List.mem_filter.1 hc).1
  column_names :=
    (List.filter_sublist.map Column.name).nodup ht.column_names
  key := by
    intro columns key hkey
    rw [key?_without] at hkey
    by_cases hr : r.removes (.key t.path columns) = true
    · rw [if_pos hr] at hkey
      cases hkey
    · rw [if_neg hr] at hkey
      obtain ⟨old, hold, rfl⟩ := Option.map_eq_some_iff.1 hkey
      have hnamed := ht.key hold
      exact hnamed
  foreignKey := by
    intro columns fk hfk
    rw [foreignKeys_without, Option.filter_eq_some_iff] at hfk
    obtain ⟨old, hold, rfl⟩ := Option.map_eq_some_iff.1 hfk.1
    have hnamed := ht.foreignKey hold
    refine ⟨hnamed.table_eq, hnamed.columns_eq, fun {mapping reference} hget => ?_⟩
    rw [ForeignKey.get?_without] at hget
    by_cases hr : r.removes (.reference ⟨old.table, mapping⟩) = true
    · rw [if_pos hr] at hget
      cases hget
    · rw [if_neg hr] at hget
      exact hnamed.reference hget

end Table

namespace Schema

/-- The schema without removed tables and parts of tables. -/
def without (s : Schema) (r : Removal) : Schema :=
  { s with
    tables := (s.tables.filter fun table _ =>
      !r.removes (.table ⟨s.name, table⟩)).mapValues fun _ t => t.without r }

theorem get?_without (s : Schema) (r : Removal) (table : String) :
    (s.without r).tables.get? table =
      if r.removes (.table ⟨s.name, table⟩) = true then none
      else (s.tables.get? table).map (·.without r) := by
  unfold without
  rw [SortedMap.get?_mapValues, SortedMap.get?_filter]
  cases s.tables.get? table <;>
    by_cases hr : r.removes (.table ⟨s.name, table⟩) = true <;> simp [hr]

theorem without_without (s : Schema) (r r' : Removal) :
    (s.without r).without r' = s.without (r ∪ r') := by
  refine Schema.ext rfl rfl ?_ rfl rfl
  refine SortedMap.ext_get? fun table => ?_
  have hname : (s.without r).name = s.name := rfl
  simp only [get?_without, hname, Removal.removes_union]
  cases s.tables.get? table with
  | none => simp
  | some t =>
      by_cases hr : r.removes (.table ⟨s.name, table⟩) = true <;>
        by_cases hr' : r'.removes (.table ⟨s.name, table⟩) = true <;>
          simp [hr, hr', t.without_without]

end Schema

namespace Model

/-- What is left of a model after a removal. -/
def without (m : Model) (r : Removal) : Model :=
  { m with
    schemas := (m.schemas.filter fun name _ =>
      !r.removes (.schema name)).mapValues fun _ s => s.without r }

@[simp] theorem systemSchema_without (m : Model) (r : Removal) :
    (m.without r).systemSchema = m.systemSchema := rfl

theorem schemas_without (m : Model) (r : Removal) (name : String) :
    (m.without r).schemas.get? name =
      if r.removes (.schema name) = true then none
      else (m.schemas.get? name).map (·.without r) := by
  unfold without
  rw [SortedMap.get?_mapValues, SortedMap.get?_filter]
  cases m.schemas.get? name <;>
    by_cases hr : r.removes (.schema name) = true <;> simp [hr]

theorem emptied_without {m : Model} {r : Removal} {name : String}
    (h : r.removes (.schema name) = false) :
    ((m.without r).schemas.get? name).map Schema.emptied =
      (m.schemas.get? name).map Schema.emptied := by
  rw [schemas_without, h, if_neg Bool.false_ne_true, Option.map_map]
  rfl

theorem without_without (m : Model) (r s : Removal) :
    (m.without r).without s = m.without (r ∪ s) := by
  refine Model.ext ?_ rfl rfl rfl
  refine SortedMap.ext_get? fun name => ?_
  simp only [schemas_without, Removal.removes_union]
  cases m.schemas.get? name with
  | none => simp
  | some schema =>
      by_cases hr : r.removes (.schema name) = true <;>
        by_cases hs : s.removes (.schema name) = true <;>
          simp [hr, hs, schema.without_without]

namespace Named

variable {m : Model}

theorem table?_without (hm : m.Named) (r : Removal) (path : TablePath) :
    (m.without r).table? path =
      if r.removes (.table path) = true then none
      else (m.table? path).map (·.without r) := by
  unfold table?
  rw [schemas_without]
  cases hs : m.schemas.get? path.schema with
  | none => simp
  | some s =>
      have hname := hm.schema_name hs
      by_cases hschema : r.removes (.schema path.schema) = true
      · have htable : r.removes (.table path) = true := r.owned rfl hschema
        simp [hschema, htable]
      · rw [if_neg hschema, Option.map_some, Option.bind_some,
          Schema.get?_without, hname, Option.bind_some]

theorem key?_without (hm : m.Named) (r : Removal) (path : TablePath)
    (columns : ColumnSet) :
    (m.without r).key? path columns =
      if r.removes (.key path columns) = true then none
      else (m.key? path columns).map (·.without r) := by
  unfold key?
  rw [hm.table?_without]
  cases ht : m.table? path with
  | none => simp
  | some t =>
      by_cases htable : r.removes (.table path) = true
      · have hkey : r.removes (.key path columns) = true := r.owned rfl htable
        simp [htable, hkey]
      · rw [if_neg htable, Option.map_some, Option.bind_some,
          Table.key?_without, (hm.table ht).path_eq, Option.bind_some]

theorem reference?_without (hm : m.Named) (r : Removal) (id : ReferenceId) :
    (m.without r).reference? id =
      if r.removes (.reference id) = true then none else m.reference? id := by
  unfold reference?
  rw [hm.table?_without]
  cases ht : m.table? id.source with
  | none => simp
  | some t =>
      by_cases htable : r.removes (.table id.source) = true
      · have hid : r.removes (.reference id) = true := r.owned rfl htable
        simp [htable, hid]
      · rw [if_neg htable, Option.map_some, Option.bind_some,
          (hm.table ht).reference?_without, Option.bind_some]

theorem without (hm : m.Named) (r : Removal) : (m.without r).Named where
  schema_name := by
    intro name s hs
    rw [schemas_without] at hs
    by_cases hr : r.removes (.schema name) = true
    · rw [if_pos hr] at hs
      cases hs
    · rw [if_neg hr] at hs
      obtain ⟨old, hold, rfl⟩ := Option.map_eq_some_iff.1 hs
      have hname := hm.schema_name hold
      exact hname
  table := by
    intro path t ht
    rw [hm.table?_without] at ht
    by_cases hr : r.removes (.table path) = true
    · rw [if_pos hr] at ht
      cases ht
    · rw [if_neg hr] at ht
      obtain ⟨old, hold, rfl⟩ := Option.map_eq_some_iff.1 ht
      exact (hm.table hold).without r

end Named

end Model

end GovernedCatalog
