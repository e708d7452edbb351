import GovernedCatalog.Proofs.Model.Closed
import GovernedCatalog.Rights.Matrix

/-!
# Entities of a table

Most addresses are in a table.  What is listed of a table is what is found at such
addresses, each entity at its own.
-/

namespace GovernedCatalog

/-- The table that an address is in, or the address of. -/
def Address.tablePath? : Address → Option TablePath
  | .catalog | .schema _ => none
  | .table path | .column path _ | .key path _ | .foreignKey path _ => some path
  | .reference id => some id.source

/-- An address that is not in a table is the catalog's or a schema's. -/
theorem Address.outside_or_in_table (a : Address) :
    a = .catalog ∨ (∃ name, a = .schema name) ∨
      ∃ path, a.tablePath? = some path := by
  cases a <;> simp [tablePath?]

namespace Table

/-- The entity at an address in the table. -/
def entity? (t : Table) : Address → Option Entity
  | .catalog | .schema _ => none
  | .table _ => some (.table t)
  | .column _ name => (t.column? name).map Entity.column
  | .key _ columns => (t.key? columns).map Entity.key
  | .foreignKey _ columns => (t.foreignKeys.get? columns).map Entity.foreignKey
  | .reference id => (t.reference? id.mapping).map Entity.reference

variable {t : Table} {path : TablePath} {a : Address} {e : Entity}

/-- What is found in a table is listed of it. -/
theorem mem_entities_of_entity? (h : t.entity? a = some e) :
    e ∈ t.entities.map Prod.snd := by
  cases a with
  | catalog => cases h
  | schema name => cases h
  | table path =>
      cases h
      exact List.mem_cons_self
  | column path name =>
      obtain ⟨c, hc, rfl⟩ := Option.map_eq_some_iff.1 h
      simp [entities, (column?_eq_some hc).1]
  | key path columns =>
      obtain ⟨key, hkey, rfl⟩ := Option.map_eq_some_iff.1 h
      have hmem : key ∈ t.keys.values := SortedMap.mem_values_iff.2 ⟨_, hkey⟩
      simp [entities, hmem]
  | foreignKey path columns =>
      obtain ⟨fk, hfk, rfl⟩ := Option.map_eq_some_iff.1 h
      have hmem : fk ∈ t.foreignKeys.values :=
        SortedMap.mem_values_iff.2 ⟨_, hfk⟩
      simp [entities, hmem]
  | reference id =>
      obtain ⟨r, hr, rfl⟩ := Option.map_eq_some_iff.1 h
      obtain ⟨fk, hfk, hget⟩ := reference?_eq_some_iff.1 hr
      have hmem : r ∈ t.references := mem_references_iff.2 ⟨_, fk, _, hfk, hget⟩
      simp [entities, hmem]

namespace Named

variable (ht : t.Named path)

include ht

/-- What is listed of a table is found in it. -/
theorem entity?_of_mem (he : e ∈ t.entities.map Prod.snd) :
    e.address.tablePath? = some path ∧ t.entity? e.address = some e := by
  simp only [entities, List.map_cons, List.map_append, List.map_map,
    List.mem_cons, List.mem_append, List.mem_map, Function.comp_apply] at he
  rcases he with rfl | ((⟨c, hc, rfl⟩ | ⟨k, hk, rfl⟩) | ⟨fk, hfk, rfl⟩) |
    ⟨r, hr, rfl⟩
  · exact ⟨congrArg some ht.path_eq, rfl⟩
  · have hget := ht.column?_eq_some_iff.2 ⟨hc, rfl⟩
    exact ⟨congrArg some (ht.column_table c hc),
      Option.map_eq_some_iff.2 ⟨c, hget, rfl⟩⟩
  · obtain ⟨columns, hget⟩ := SortedMap.mem_values_iff.1 hk
    obtain ⟨htable, rfl⟩ := ht.key hget
    exact ⟨congrArg some htable, Option.map_eq_some_iff.2 ⟨k, hget, rfl⟩⟩
  · obtain ⟨columns, hget⟩ := SortedMap.mem_values_iff.1 hfk
    obtain ⟨htable, rfl, _⟩ := ht.foreignKey hget
    exact ⟨congrArg some htable, Option.map_eq_some_iff.2 ⟨fk, hget, rfl⟩⟩
  · have hget := ht.mem_references.1 hr
    exact ⟨congrArg some (ht.reference hget).1,
      Option.map_eq_some_iff.2 ⟨r, hget, rfl⟩⟩

/-- What is found at an address in a table has the address. -/
theorem address_of_entity? (ha : a.tablePath? = some path)
    (h : t.entity? a = some e) : e.address = a := by
  cases a with
  | catalog => cases h
  | schema name => cases h
  | table path' =>
      cases ha
      cases h
      exact congrArg Address.table ht.path_eq
  | column path' name =>
      cases ha
      obtain ⟨c, hc, rfl⟩ := Option.map_eq_some_iff.1 h
      obtain ⟨hmem, hname⟩ := column?_eq_some hc
      exact congrArg₂ Address.column (ht.column_table c hmem) hname
  | key path' columns =>
      cases ha
      obtain ⟨key, hkey, rfl⟩ := Option.map_eq_some_iff.1 h
      obtain ⟨htable, hcolumns⟩ := ht.key hkey
      exact congrArg₂ Address.key htable hcolumns
  | foreignKey path' columns =>
      cases ha
      obtain ⟨fk, hfk, rfl⟩ := Option.map_eq_some_iff.1 h
      have hnamed := ht.foreignKey hfk
      exact congrArg₂ Address.foreignKey hnamed.table_eq hnamed.columns_eq
  | reference id =>
      cases ha
      obtain ⟨r, hr, rfl⟩ := Option.map_eq_some_iff.1 h
      obtain ⟨hsource, hmapping⟩ := ht.reference hr
      exact congrArg Address.reference (congrArg₂ ReferenceId.mk hsource hmapping)

end Named

end Table

end GovernedCatalog
