import GovernedCatalog.Proofs.Model.Listing

/-!
# Models whose entities are told apart

In an addressable model every entity is stored under the names it carries, and
the names of the system schema are its own.  Every entity of such a model is the
one that the rules find under its names, so entities are told apart by their
addresses.
-/

namespace GovernedCatalog

namespace Model

structure Addressable (m : Model) : Prop extends m.Named where
  system_table : ∀ {name : String} {t : Table},
    m.systemSchema.tables.get? name = some t →
      t.Named ⟨m.systemSchema.name, name⟩
  system_apart : m.schemas.get? m.systemSchema.name = none

/-- The entity that the rules find at an address. -/
def entityAt? (m : Model) : Address → Option Entity
  | .catalog => some .catalog
  | .schema name => (m.schemaOf? name).map Entity.schema
  | .table path => (m.tableOf? path).map Entity.table
  | .column path name =>
      (m.tableOf? path).bind fun t => (t.column? name).map Entity.column
  | .key path columns =>
      (m.tableOf? path).bind fun t => (t.key? columns).map Entity.key
  | .foreignKey path columns =>
      (m.tableOf? path).bind fun t =>
        (t.foreignKeys.get? columns).map Entity.foreignKey
  | .reference id =>
      (m.tableOf? id.source).bind fun t =>
        (t.reference? id.mapping).map Entity.reference

theorem entityAt?_in_table {m : Model} {a : Address} {path : TablePath}
    (ha : a.tablePath? = some path) :
    m.entityAt? a = (m.tableOf? path).bind fun t => t.entity? a := by
  cases a with
  | catalog => cases ha
  | schema name => cases ha
  | table path' =>
      cases ha
      change (m.tableOf? path).map Entity.table = _
      cases m.tableOf? path <;> rfl
  | _ =>
      cases ha
      rfl

/-- The entity is the one that the rules find at its address. -/
def Holds (m : Model) (e : Entity) : Prop := m.entityAt? e.address = some e

/-- Entities with the same address are the same. -/
theorem Holds.eq_of_address {m : Model} {e e' : Entity} (he : m.Holds e)
    (he' : m.Holds e') (h : e.address = e'.address) : e = e' := by
  unfold Holds at he he'
  rw [h, he', Option.some.injEq] at he
  exact he.symm

section Holds

variable {m : Model}

theorem holds_catalog : m.Holds .catalog := rfl

theorem holds_schema {s : Schema} :
    m.Holds (.schema s) ↔ m.schemaOf? s.name = some s := by
  simp [Holds, entityAt?, Entity.address]

theorem holds_table {t : Table} :
    m.Holds (.table t) ↔ m.tableOf? t.path = some t := by
  simp [Holds, entityAt?, Entity.address]

theorem holds_column {c : Column} :
    m.Holds (.column c) ↔
      ∃ t, m.tableOf? c.table = some t ∧ t.column? c.name = some c := by
  simp [Holds, entityAt?, Entity.address, Option.bind_eq_some_iff]

theorem holds_key {k : UniqueKey} :
    m.Holds (.key k) ↔
      ∃ t, m.tableOf? k.table = some t ∧ t.key? k.columns = some k := by
  simp [Holds, entityAt?, Entity.address, Option.bind_eq_some_iff]

theorem holds_foreignKey {fk : ForeignKey} :
    m.Holds (.foreignKey fk) ↔
      ∃ t, m.tableOf? fk.table = some t ∧
        t.foreignKeys.get? fk.columns = some fk := by
  simp [Holds, entityAt?, Entity.address, Option.bind_eq_some_iff]

theorem holds_reference {r : Reference} :
    m.Holds (.reference r) ↔
      ∃ t, m.tableOf? r.source = some t ∧ t.reference? r.mapping = some r := by
  simp [Holds, entityAt?, Entity.address, Reference.id,
    Option.bind_eq_some_iff]

end Holds

namespace Addressable

variable {m : Model}

theorem schemaOf?_name (hm : m.Addressable) {name : String} {s : Schema}
    (hs : m.schemaOf? name = some s) : s.name = name := by
  unfold schemaOf? at hs
  by_cases hname : name = m.systemSchema.name
  · rw [if_pos hname, Option.some.injEq] at hs
    rw [← hs, hname]
  · rw [if_neg hname] at hs
    exact hm.schema_name hs

theorem tableOf?_named (hm : m.Addressable) {path : TablePath} {t : Table}
    (ht : m.tableOf? path = some t) : t.Named path := by
  obtain ⟨s, hs, hget⟩ := Option.bind_eq_some_iff.1 ht
  unfold schemaOf? at hs
  by_cases hname : path.schema = m.systemSchema.name
  · rw [if_pos hname, Option.some.injEq] at hs
    subst hs
    have hnamed := hm.system_table hget
    rw [← hname] at hnamed
    exact hnamed
  · rw [if_neg hname] at hs
    exact hm.table (table?_eq_some_iff.2 ⟨s, hs, hget⟩)

theorem schemaOf?_of_get? (hm : m.Addressable) {name : String} {s : Schema}
    (hs : m.schemas.get? name = some s) : m.schemaOf? name = some s := by
  unfold schemaOf?
  rw [if_neg]
  · exact hs
  · rintro rfl
    rw [hm.system_apart] at hs
    cases hs

theorem tableOf?_of_table? (hm : m.Addressable) {path : TablePath} {t : Table}
    (ht : m.table? path = some t) : m.tableOf? path = some t := by
  obtain ⟨s, hs, hget⟩ := table?_eq_some_iff.1 ht
  exact Option.bind_eq_some_iff.2 ⟨s, hm.schemaOf?_of_get? hs, hget⟩

theorem holds_of_schemaOf? (hm : m.Addressable) {name : String} {s : Schema}
    (hs : m.schemaOf? name = some s) : m.Holds (.schema s) := by
  rw [holds_schema, hm.schemaOf?_name hs]
  exact hs

theorem holds_of_tableOf? (hm : m.Addressable) {path : TablePath} {t : Table}
    (ht : m.tableOf? path = some t) : m.Holds (.table t) := by
  rw [holds_table, (hm.tableOf?_named ht).path_eq]
  exact ht

theorem holds_of_column? (hm : m.Addressable) {path : TablePath} {t : Table}
    (ht : m.tableOf? path = some t) {name : String} {c : Column}
    (hc : t.column? name = some c) : m.Holds (.column c) := by
  obtain ⟨hmem, hname⟩ := Table.column?_eq_some hc
  rw [holds_column, (hm.tableOf?_named ht).column_table c hmem, hname]
  exact ⟨t, ht, hc⟩

theorem holds_of_mem_columns (hm : m.Addressable) {path : TablePath}
    {t : Table} (ht : m.tableOf? path = some t) {c : Column}
    (hc : c ∈ t.columns) : m.Holds (.column c) :=
  hm.holds_of_column? ht ((hm.tableOf?_named ht).column?_eq_some_iff.2 ⟨hc, rfl⟩)

theorem holds_of_key? (hm : m.Addressable) {path : TablePath} {t : Table}
    (ht : m.tableOf? path = some t) {columns : ColumnSet} {k : UniqueKey}
    (hk : t.key? columns = some k) : m.Holds (.key k) := by
  obtain ⟨htable, hcolumns⟩ := (hm.tableOf?_named ht).key hk
  rw [holds_key, htable, hcolumns]
  exact ⟨t, ht, hk⟩

theorem holds_of_foreignKey (hm : m.Addressable) {path : TablePath} {t : Table}
    (ht : m.tableOf? path = some t) {columns : ColumnSet} {fk : ForeignKey}
    (hfk : t.foreignKeys.get? columns = some fk) : m.Holds (.foreignKey fk) := by
  have hnamed := (hm.tableOf?_named ht).foreignKey hfk
  rw [holds_foreignKey, hnamed.table_eq, hnamed.columns_eq]
  exact ⟨t, ht, hfk⟩

theorem holds_of_mem_references (hm : m.Addressable) {path : TablePath}
    {t : Table} (ht : m.tableOf? path = some t) {r : Reference}
    (hr : r ∈ t.references) : m.Holds (.reference r) := by
  have hnamed := hm.tableOf?_named ht
  have hget := hnamed.mem_references.1 hr
  rw [holds_reference, (hnamed.reference hget).1]
  exact ⟨t, ht, hget⟩

/-- The key that a mapping of a visible reference leads to. -/
theorem holds_of_referencedKey (hm : m.Addressable) {mapping : ReferenceMap}
    {k : UniqueKey} (hk : m.referencedKey mapping = .ok k) :
    m.Holds (.key k) := by
  obtain ⟨t, ht, hget⟩ := key?_eq_some_iff.1 (referencedKey_eq_ok_iff.1 hk)
  exact hm.holds_of_key? (hm.tableOf?_of_table? ht) hget

theorem holds_of_table_entities (hm : m.Addressable) {path : TablePath}
    {t : Table} (ht : m.tableOf? path = some t) {e : Entity}
    (he : e ∈ t.entities.map Prod.snd) : m.Holds e := by
  obtain ⟨hpath, hentity⟩ := (hm.tableOf?_named ht).entity?_of_mem he
  unfold Holds
  rw [entityAt?_in_table hpath, ht]
  exact hentity

theorem holds_of_schema_entities (hm : m.Addressable) {name : String}
    {s : Schema} (hs : m.schemaOf? name = some s) {e : Entity}
    (he : e ∈ s.entities.map Prod.snd) : m.Holds e := by
  simp only [Schema.entities, List.map_cons, List.map_flatMap, List.mem_cons,
    List.mem_flatMap] at he
  rcases he with rfl | ⟨t, ht, he⟩
  · exact hm.holds_of_schemaOf? hs
  · obtain ⟨table, hget⟩ := SortedMap.mem_values_iff.1 ht
    have hpath : m.tableOf? ⟨name, table⟩ = some t :=
      Option.bind_eq_some_iff.2 ⟨s, hs, hget⟩
    exact hm.holds_of_table_entities hpath he

/-- All entities of the model are found at their addresses. -/
theorem holds_of_mem_entities (hm : m.Addressable) {e : Entity}
    (he : e ∈ m.entities.map Prod.snd) : m.Holds e := by
  simp only [entities, List.map_cons, List.map_append, List.map_flatMap,
    List.mem_cons, List.mem_append, List.mem_flatMap] at he
  rcases he with rfl | ⟨s, hs, he⟩ | he
  · exact holds_catalog
  · obtain ⟨name, hget⟩ := SortedMap.mem_values_iff.1 hs
    exact hm.holds_of_schema_entities (hm.schemaOf?_of_get? hget) he
  · exact hm.holds_of_schema_entities (if_pos rfl) he

/-- What is found at an address has the address. -/
theorem address_of_entityAt? (hm : m.Addressable) {a : Address} {e : Entity}
    (he : m.entityAt? a = some e) : e.address = a := by
  rcases a.outside_or_in_table with rfl | ⟨name, rfl⟩ | ⟨path, hpath⟩
  · cases he
    rfl
  · obtain ⟨s, hs, rfl⟩ := Option.map_eq_some_iff.1 he
    exact congrArg Address.schema (hm.schemaOf?_name hs)
  · rw [entityAt?_in_table hpath] at he
    obtain ⟨t, ht, he⟩ := Option.bind_eq_some_iff.1 he
    exact (hm.tableOf?_named ht).address_of_entity? hpath he

end Addressable

section Listed

variable {m : Model} {e : Entity}

theorem mem_entities_of_schemaOf? {name : String} {s : Schema}
    (hs : m.schemaOf? name = some s) (he : e ∈ s.entities.map Prod.snd) :
    e ∈ m.entities.map Prod.snd := by
  simp only [entities, List.map_cons, List.map_append, List.map_flatMap,
    List.mem_cons, List.mem_append, List.mem_flatMap]
  unfold schemaOf? at hs
  by_cases hname : name = m.systemSchema.name
  · rw [if_pos hname, Option.some.injEq] at hs
    exact Or.inr (Or.inr (hs ▸ he))
  · rw [if_neg hname] at hs
    exact Or.inr (Or.inl ⟨s, SortedMap.mem_values_iff.2 ⟨name, hs⟩, he⟩)

theorem mem_entities_of_tableOf? {path : TablePath} {t : Table}
    (ht : m.tableOf? path = some t) (he : e ∈ t.entities.map Prod.snd) :
    e ∈ m.entities.map Prod.snd := by
  obtain ⟨s, hs, hget⟩ := Option.bind_eq_some_iff.1 ht
  refine mem_entities_of_schemaOf? hs ?_
  simp only [Schema.entities, List.map_cons, List.map_flatMap, List.mem_cons,
    List.mem_flatMap]
  exact Or.inr ⟨t, SortedMap.mem_values_iff.2 ⟨path.table, hget⟩, he⟩

/-- What is found at an address is listed. -/
theorem mem_entities_of_entityAt? {a : Address} (he : m.entityAt? a = some e) :
    e ∈ m.entities.map Prod.snd := by
  rcases a.outside_or_in_table with rfl | ⟨name, rfl⟩ | ⟨path, hpath⟩
  · cases he
    exact List.mem_cons_self
  · obtain ⟨s, hs, rfl⟩ := Option.map_eq_some_iff.1 he
    exact mem_entities_of_schemaOf? hs List.mem_cons_self
  · rw [entityAt?_in_table hpath] at he
    obtain ⟨t, ht, he⟩ := Option.bind_eq_some_iff.1 he
    exact mem_entities_of_tableOf? ht (Table.mem_entities_of_entity? he)

end Listed

end Model

end GovernedCatalog
