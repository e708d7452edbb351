import Mathlib.Data.List.Nodup
import GovernedCatalog.Proofs.Model.View

/-!
# Closed models

In a closed model everything is stored under the names it carries, tables have
the columns of their keys and foreign keys, and references are linked at both
ends: the key that a reference leads to knows the reference, and a key knows no
other references.
-/

namespace GovernedCatalog

/-- A foreign key stored at a set of columns of a table, with its references
stored at their mappings. -/
structure ForeignKey.Named (fk : ForeignKey) (path : TablePath)
    (columns : ColumnSet) : Prop where
  table_eq : fk.table = path
  columns_eq : fk.columns = columns
  reference : ∀ {mapping : ReferenceMap} {r : Reference},
    fk.references.get? mapping = some r →
      r.source = path ∧ r.mapping = mapping ∧ mapping.fromColumns = columns

/-- A table stored at a path, with everything in it stored at its own name. -/
structure Table.Named (t : Table) (path : TablePath) : Prop where
  path_eq : t.path = path
  column_table : ∀ c ∈ t.columns, c.table = path
  column_names : (t.columns.map Column.name).Nodup
  key : ∀ {columns : ColumnSet} {key : UniqueKey},
    t.key? columns = some key → key.table = path ∧ key.columns = columns
  foreignKey : ∀ {columns : ColumnSet} {fk : ForeignKey},
    t.foreignKeys.get? columns = some fk → fk.Named path columns

/-- A table that has the columns of its keys and foreign keys, and no foreign
key without a reference. -/
structure Table.WellFormed (t : Table) (path : TablePath) : Prop
    extends t.Named path where
  key_columns : ∀ {columns : ColumnSet} {key : UniqueKey},
    t.key? columns = some key → ∀ name ∈ columns, t.hasColumn name = true
  foreignKey_columns : ∀ {columns : ColumnSet} {fk : ForeignKey},
    t.foreignKeys.get? columns = some fk →
      ∀ name ∈ columns, t.hasColumn name = true
  foreignKey_nonempty : ∀ {columns : ColumnSet} {fk : ForeignKey},
    t.foreignKeys.get? columns = some fk → fk.references.isEmpty = false

/-- A model whose visible schemas and tables are stored at their own names. -/
structure Model.Named (m : Model) : Prop where
  schema_name : ∀ {name : String} {s : Schema},
    m.schemas.get? name = some s → s.name = name
  table : ∀ {path : TablePath} {t : Table},
    m.table? path = some t → t.Named path

structure Model.Closed (m : Model) : Prop where
  schema_name : ∀ {name : String} {s : Schema},
    m.schemas.get? name = some s → s.name = name
  table : ∀ {path : TablePath} {t : Table},
    m.table? path = some t → t.WellFormed path
  /-- The key that a reference leads to knows the reference. -/
  outbound : ∀ {path : TablePath} {t : Table},
    m.table? path = some t → ∀ r ∈ t.references,
      ∃ key, m.referencedKey r.mapping = .ok key ∧ r.id ∈ key.referencedBy
  /-- The references that a key knows lead to it. -/
  inbound : ∀ {path : TablePath} {columns : ColumnSet} {key : UniqueKey},
    m.key? path columns = some key → ∀ id ∈ key.referencedBy,
      ∃ r, m.reference id = .ok r ∧ r.mapping.target = path ∧
        r.mapping.toColumns = columns

namespace Table

theorem mem_references_iff {t : Table} {r : Reference} :
    r ∈ t.references ↔
      ∃ columns fk mapping, t.foreignKeys.get? columns = some fk ∧
        fk.references.get? mapping = some r := by
  simp only [references, List.mem_flatMap, SortedMap.mem_values_iff]
  constructor
  · rintro ⟨fk, ⟨columns, hfk⟩, mapping, hr⟩
    exact ⟨columns, fk, mapping, hfk, hr⟩
  · rintro ⟨columns, fk, mapping, hfk, hr⟩
    exact ⟨fk, ⟨columns, hfk⟩, mapping, hr⟩

theorem reference?_eq_some_iff {t : Table} {mapping : ReferenceMap}
    {r : Reference} :
    t.reference? mapping = some r ↔
      ∃ fk, t.foreignKeys.get? mapping.fromColumns = some fk ∧
        fk.references.get? mapping = some r := by
  simp [reference?, Option.bind_eq_some_iff]

namespace Named

variable {t : Table} {path : TablePath}

theorem reference (ht : t.Named path) {mapping : ReferenceMap} {r : Reference}
    (hr : t.reference? mapping = some r) :
    r.source = path ∧ r.mapping = mapping := by
  obtain ⟨fk, hfk, hget⟩ := reference?_eq_some_iff.1 hr
  obtain ⟨hsource, hmapping, _⟩ := (ht.foreignKey hfk).reference hget
  exact ⟨hsource, hmapping⟩

theorem mem_references (ht : t.Named path) {r : Reference} :
    r ∈ t.references ↔ t.reference? r.mapping = some r := by
  rw [mem_references_iff, reference?_eq_some_iff]
  constructor
  · rintro ⟨columns, fk, mapping, hfk, hr⟩
    obtain ⟨_, hmapping, hcolumns⟩ := (ht.foreignKey hfk).reference hr
    subst hmapping
    subst hcolumns
    exact ⟨fk, hfk, hr⟩
  · rintro ⟨fk, hfk, hr⟩
    exact ⟨_, fk, _, hfk, hr⟩

theorem mem_reference_ids (ht : t.Named path) {id : ReferenceId} :
    id ∈ t.references.map Reference.id ↔
      id.source = path ∧ ∃ r, t.reference? id.mapping = some r := by
  rw [List.mem_map]
  constructor
  · rintro ⟨r, hr, rfl⟩
    have hget := ht.mem_references.1 hr
    exact ⟨(ht.reference hget).1, r, hget⟩
  · rintro ⟨hsource, r, hget⟩
    obtain ⟨hsource', hmapping⟩ := ht.reference hget
    refine ⟨r, ht.mem_references.2 (by rw [hmapping]; exact hget), ?_⟩
    rw [Reference.id, hsource', ← hsource, hmapping]

theorem column?_eq_some_iff (ht : t.Named path) {name : String} {c : Column} :
    t.column? name = some c ↔ c ∈ t.columns ∧ c.name = name := by
  constructor
  · exact column?_eq_some
  · rintro ⟨hmem, rfl⟩
    unfold column?
    cases hfind : t.columns.find? fun d => d.name == c.name with
    | none =>
        have hne := List.find?_eq_none.1 hfind c hmem
        simp at hne
    | some d =>
        have hname := List.find?_some hfind
        have hd := List.mem_of_find?_eq_some hfind
        rw [List.inj_on_of_nodup_map ht.column_names hd hmem (by simpa using hname)]

end Named

end Table

namespace Model

theorem referencedKey_eq_ok_iff {m : Model} {mapping : ReferenceMap}
    {key : UniqueKey} :
    m.referencedKey mapping = .ok key ↔
      m.key? mapping.target mapping.toColumns = some key := by
  unfold referencedKey key?
  cases htable : m.table mapping.target with
  | error e =>
      cases hview : m.table? mapping.target with
      | none => simp [bind, Except.bind]
      | some t =>
          rw [table_eq_ok_iff.2 hview] at htable
          cases htable
  | ok t =>
      rw [table_eq_ok_iff.1 htable]
      exact Table.key_eq_ok_iff

/-- A key at the path and columns knows the reference. -/
def Links (m : Model) (path : TablePath) (columns : ColumnSet)
    (id : ReferenceId) : Prop :=
  ∃ key, m.key? path columns = some key ∧ id ∈ key.referencedBy

/-- A key exactly of the references to it. -/
def Linked (m : Model) : Prop :=
  ∀ path columns id,
    m.Links path columns id ↔
      (m.reference? id).isSome = true ∧ id.mapping.target = path ∧
        id.mapping.toColumns = columns

namespace Named

variable {m : Model}

theorem reference (hm : m.Named) {id : ReferenceId} {r : Reference}
    (hr : m.reference? id = some r) :
    r.source = id.source ∧ r.mapping = id.mapping := by
  obtain ⟨t, ht, hget⟩ := reference?_eq_some_iff.1 hr
  exact (hm.table ht).reference hget

theorem reference_id (hm : m.Named) {id : ReferenceId} {r : Reference}
    (hr : m.reference? id = some r) : r.id = id := by
  obtain ⟨hsource, hmapping⟩ := hm.reference hr
  unfold Reference.id
  rw [hsource, hmapping]

theorem key (hm : m.Named) {path : TablePath} {columns : ColumnSet}
    {key : UniqueKey} (hkey : m.key? path columns = some key) :
    key.table = path ∧ key.columns = columns := by
  obtain ⟨t, ht, hget⟩ := key?_eq_some_iff.1 hkey
  exact (hm.table ht).key hget

end Named

namespace Closed

variable {m : Model}

theorem named (hm : m.Closed) : m.Named where
  schema_name := hm.schema_name
  table := fun ht => (hm.table ht).toNamed

theorem linked (hm : m.Closed) : m.Linked := by
  intro path columns id
  constructor
  · rintro ⟨key, hkey, hid⟩
    obtain ⟨r, hr, htarget, hcolumns⟩ := hm.inbound hkey id hid
    have hview := reference_eq_ok_iff.1 hr
    rw [(hm.named.reference hview).2] at htarget hcolumns
    exact ⟨Option.isSome_iff_exists.2 ⟨r, hview⟩, htarget, hcolumns⟩
  · rintro ⟨hsome, rfl, rfl⟩
    obtain ⟨r, hr⟩ := Option.isSome_iff_exists.1 hsome
    obtain ⟨t, ht, hget⟩ := reference?_eq_some_iff.1 hr
    have hmapping := (hm.named.reference hr).2
    have hmem : r ∈ t.references := by
      rw [(hm.table ht).mem_references, hmapping]
      exact hget
    obtain ⟨key, hkey, hid⟩ := hm.outbound ht r hmem
    rw [hm.named.reference_id hr] at hid
    rw [hmapping, referencedKey_eq_ok_iff] at hkey
    exact ⟨key, hkey, hid⟩

/-- A model is closed if its tables are well formed and its references are
linked. -/
theorem of_linked
    (hschema : ∀ {name : String} {s : Schema},
      m.schemas.get? name = some s → s.name = name)
    (htable : ∀ {path : TablePath} {t : Table},
      m.table? path = some t → t.WellFormed path)
    (hlinked : m.Linked) : m.Closed where
  schema_name := hschema
  table := htable
  outbound := by
    intro path t ht r hr
    have hget := (htable ht).mem_references.1 hr
    have hsource := ((htable ht).reference hget).1
    have hview : m.reference? r.id = some r := by
      unfold reference? Reference.id
      rw [hsource, ht]
      exact hget
    obtain ⟨key, hkey, hid⟩ := (hlinked _ _ r.id).2
      ⟨Option.isSome_iff_exists.2 ⟨r, hview⟩, rfl, rfl⟩
    exact ⟨key, referencedKey_eq_ok_iff.2 hkey, hid⟩
  inbound := by
    intro path columns key hkey id hid
    obtain ⟨hsome, htarget, hcolumns⟩ := (hlinked _ _ id).1 ⟨key, hkey, hid⟩
    obtain ⟨r, hr⟩ := Option.isSome_iff_exists.1 hsome
    obtain ⟨t, ht, hget⟩ := reference?_eq_some_iff.1 hr
    rw [← ((htable ht).reference hget).2] at htarget hcolumns
    exact ⟨r, reference_eq_ok_iff.2 hr, htarget, hcolumns⟩

end Closed

/-- A model without visible schemas is closed. -/
theorem fresh_closed (systemSchema : String) : (fresh systemSchema).Closed where
  schema_name h := by cases h
  table h := by cases h
  outbound h := by cases h
  inbound h := by cases h

end Model

end GovernedCatalog
