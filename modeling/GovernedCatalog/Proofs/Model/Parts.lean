import GovernedCatalog.Proofs.Fallible
import GovernedCatalog.Proofs.Model.Removal

/-!
# Parts of a model

The parts of a model are listed once each, and what a removal leaves of a model
has the parts that are not removed.  The rows of a part in storage are those of
the entity that is found under its names.
-/

namespace GovernedCatalog

def Table.parts (t : Table) : List Part :=
  .table t.path ::
    (t.columns.map (fun c => .column t.path c.name) ++
      t.keys.keys.map (fun columns => .key t.path columns) ++
      t.references.map (fun r => .reference r.id))

def Schema.parts (s : Schema) : List Part :=
  .schema s.name :: s.tables.values.flatMap Table.parts

namespace Model

def parts (m : Model) : List Part := m.schemas.values.flatMap Schema.parts

/-- The entity with the names is in the model. -/
def Has (m : Model) (p : Part) : Prop := ∃ e, m.entity p.address = .ok e

/-- The statements that delete the stored rows of all removed parts. -/
def purges (m : Model) (r : Removal) : List String :=
  (m.parts.filter r.removes).flatMap fun p =>
    p.storageKey.purge m.systemSchema.name

/-- The entity of a part is found by one look-up in the model. -/
theorem has_iff {m : Model} {p : Part} {α : Type} {x : Except Error α}
    {f : α → Entity} (h : m.entity p.address = x.map f) :
    m.Has p ↔ ∃ a, x = .ok a := by
  unfold Has
  rw [h]
  simp only [map_eq_ok]
  constructor
  · rintro ⟨_, a, ha, _⟩
    exact ⟨a, ha⟩
  · rintro ⟨a, ha⟩
    exact ⟨f a, a, ha, rfl⟩

theorem has_schema {m : Model} {name : String} :
    m.Has (.schema name) ↔ ∃ s, m.schemas.get? name = some s := by
  simp only [← schema_eq_ok_iff]
  exact has_iff rfl

theorem has_table {m : Model} {path : TablePath} :
    m.Has (.table path) ↔ ∃ t, m.table? path = some t := by
  simp only [← table_eq_ok_iff]
  exact has_iff rfl

theorem has_column {m : Model} {path : TablePath} {name : String} :
    m.Has (.column path name) ↔
      ∃ t, m.table? path = some t ∧ t.hasColumn name = true := by
  rw [has_iff (x := m.column path name) rfl]
  unfold Model.column
  simp only [bind_eq_ok, table_eq_ok_iff, Table.column_eq_ok_iff]
  unfold Table.hasColumn
  simp only [Option.isSome_iff_exists]
  exact ⟨fun ⟨c, t, ht, hc⟩ => ⟨t, ht, c, hc⟩, fun ⟨t, ht, c, hc⟩ => ⟨c, t, ht, hc⟩⟩

theorem has_key {m : Model} {path : TablePath} {columns : ColumnSet} :
    m.Has (.key path columns) ↔ ∃ key, m.key? path columns = some key := by
  unfold Has entity Part.address
  simp only [bind_eq_ok, table_eq_ok_iff, Table.key_eq_ok_iff,
    key?_eq_some_iff]
  constructor
  · rintro ⟨_, t, ht, key, hkey, _⟩
    exact ⟨key, t, ht, hkey⟩
  · rintro ⟨key, t, ht, hkey⟩
    exact ⟨_, t, ht, key, hkey, rfl⟩

theorem has_reference {m : Model} {id : ReferenceId} :
    m.Has (.reference id) ↔ ∃ r, m.reference? id = some r := by
  simp only [← reference_eq_ok_iff]
  exact has_iff rfl

theorem table_of_has {m : Model} {p : Part} {path : TablePath}
    (hp : p.tablePath? = some path) (h : m.Has p) :
    ∃ t, m.table? path = some t := by
  cases ht : m.table? path with
  | some t => exact ⟨t, rfl⟩
  | none =>
      cases p with
      | schema name => cases hp
      | table path' =>
          cases hp
          simp [has_table, ht] at h
      | column path' name =>
          cases hp
          simp [has_column, ht] at h
      | key path' columns =>
          cases hp
          simp [has_key, key?, ht] at h
      | reference id =>
          cases id
          cases hp
          simp [has_reference, reference?, ht] at h

/-- What is left has the parts that are not removed. -/
theorem Named.has_without {m : Model} (hm : m.Named) (r : Removal) (p : Part) :
    (m.without r).Has p ↔ m.Has p ∧ r.removes p = false := by
  cases p with
  | schema name =>
      rw [has_schema, has_schema, schemas_without]
      cases m.schemas.get? name <;> simp
  | table path =>
      rw [has_table, has_table, hm.table?_without]
      cases m.table? path <;> simp
  | column path name =>
      rw [has_column, has_column, hm.table?_without]
      cases ht : m.table? path with
      | none => simp
      | some t =>
          have hpath := (hm.table ht).path_eq
          by_cases htable : r.removes (.table path) = true
          · have hcolumn : r.removes (.column path name) = true :=
              r.owned rfl htable
            simp [htable, hcolumn]
          · simp [htable, Table.hasColumn_without, hpath]
  | key path columns =>
      rw [has_key, has_key, hm.key?_without]
      cases m.key? path columns <;> simp
  | reference id =>
      rw [has_reference, has_reference, hm.reference?_without]
      cases m.reference? id <;> simp

end Model

/-! ## The listing -/

theorem Table.Named.mem_parts {t : Table} {path : TablePath}
    (ht : t.Named path) {p : Part} :
    p ∈ t.parts ↔
      p = .table path ∨
        (∃ name, t.hasColumn name = true ∧ p = .column path name) ∨
        (∃ columns key, t.key? columns = some key ∧ p = .key path columns) ∨
        (∃ mapping r, t.reference? mapping = some r ∧
          p = .reference ⟨path, mapping⟩) := by
  simp only [parts, List.mem_cons, List.mem_append, List.mem_map,
    ht.path_eq, SortedMap.mem_keys_iff, hasColumn_iff, or_assoc]
  refine or_congr Iff.rfl (or_congr ?_ (or_congr ?_ ?_))
  · constructor
    · rintro ⟨c, hc, rfl⟩
      exact ⟨c.name, ⟨c, hc, rfl⟩, rfl⟩
    · rintro ⟨_, ⟨c, hc, rfl⟩, rfl⟩
      exact ⟨c, hc, rfl⟩
  · constructor
    · rintro ⟨columns, ⟨key, hkey⟩, rfl⟩
      exact ⟨columns, key, hkey, rfl⟩
    · rintro ⟨columns, key, hkey, rfl⟩
      exact ⟨columns, ⟨key, hkey⟩, rfl⟩
  · constructor
    · rintro ⟨r, hr, rfl⟩
      have hget := ht.mem_references.1 hr
      refine ⟨r.mapping, r, hget, ?_⟩
      rw [Reference.id, (ht.reference hget).1]
    · rintro ⟨mapping, r, hget, rfl⟩
      obtain ⟨hsource, hmapping⟩ := ht.reference hget
      refine ⟨r, ht.mem_references.2 (by rw [hmapping]; exact hget), ?_⟩
      rw [Reference.id, hsource, hmapping]

theorem Table.Named.tablePath?_of_mem {t : Table} {path : TablePath}
    (ht : t.Named path) {p : Part} (hp : p ∈ t.parts) :
    p.tablePath? = some path := by
  rcases ht.mem_parts.1 hp with rfl | ⟨_, _, rfl⟩ | ⟨_, _, _, rfl⟩ |
    ⟨_, _, _, rfl⟩ <;> rfl

theorem Table.Named.nodup_references {t : Table} {path : TablePath}
    (ht : t.Named path) : (t.references.map Reference.id).Nodup := by
  rw [references, List.map_flatMap]
  refine SortedMap.nodup_flatMap ReferenceId.fromColumns ?_ ?_
  · intro columns fk hfk id hid
    obtain ⟨r, hr, rfl⟩ := List.mem_map.1 hid
    obtain ⟨mapping, hget⟩ := SortedMap.mem_values_iff.1 hr
    obtain ⟨_, hmapping, hcolumns⟩ := (ht.foreignKey hfk).reference hget
    rw [← hcolumns, ← hmapping]
    rfl
  · intro columns fk hfk
    refine SortedMap.nodup_map ReferenceId.mapping fun hget => ?_
    exact ((ht.foreignKey hfk).reference hget).2.1

theorem Table.Named.nodup_parts {t : Table} {path : TablePath}
    (ht : t.Named path) : t.parts.Nodup := by
  have hcolumns : (t.columns.map fun c => Part.column t.path c.name).Nodup := by
    have hnames := ht.column_names.map (f := Part.column t.path)
      fun a b h => by simpa using h
    rwa [List.map_map] at hnames
  have hkeys : (t.keys.keys.map fun columns => Part.key t.path columns).Nodup :=
    t.keys.nodup_keys.map fun a b h => by simpa using h
  have hreferences :
      (t.references.map fun r => Part.reference r.id).Nodup := by
    have hids := ht.nodup_references.map (f := Part.reference)
      fun a b h => by simpa using h
    rwa [List.map_map] at hids
  -- Parts of different kinds are different.
  refine List.nodup_cons.2 ⟨by simp, List.nodup_append.2 ⟨?_, hreferences, ?_⟩⟩
  · exact List.nodup_append.2 ⟨hcolumns, hkeys, by simp⟩
  · intro p hp q hq
    obtain ⟨r, _, rfl⟩ := List.mem_map.1 hq
    rintro rfl
    simp at hp

/-- The parts of a table by the names that they carry themselves. -/
theorem Table.Named.parts_eq {t : Table} {path : TablePath}
    (ht : t.Named path) :
    t.parts = .table t.path ::
      (t.columns.map (fun c => .column c.table c.name) ++
        t.keys.values.map (fun key => .key key.table key.columns) ++
        t.references.map fun r => .reference r.id) := by
  have hcolumns : t.columns.map (fun c => Part.column t.path c.name) =
      t.columns.map fun c => .column c.table c.name := by
    refine List.map_congr_left fun c hc => ?_
    rw [ht.path_eq, ht.column_table c hc]
  have hkeys : t.keys.keys.map (fun columns => Part.key t.path columns) =
      t.keys.values.map fun key => .key key.table key.columns := by
    unfold SortedMap.values SortedMap.keys
    rw [List.map_map, List.map_map]
    refine List.map_congr_left fun e he => ?_
    obtain ⟨htable, hcolumns⟩ :=
      ht.key (SortedMap.get?_eq_some_iff.2 (show (e.1, e.2) ∈ _ from he))
    rw [Function.comp_apply, Function.comp_apply, ht.path_eq, htable, hcolumns]
  unfold parts
  rw [hcolumns, hkeys]

/-- The statements of a table delete the rows of all its parts. -/
theorem Table.Named.purge_perm {t : Table} {path : TablePath}
    (ht : t.Named path) (systemSchema : String) :
    (t.purge systemSchema).Perm
      (t.parts.flatMap fun p => p.storageKey.purge systemSchema) := by
  rw [ht.parts_eq, List.flatMap_cons, List.flatMap_append, List.flatMap_append,
    List.flatMap_map, List.flatMap_map, List.flatMap_map]
  refine List.perm_append_comm.trans (List.Perm.append_left _ ?_)
  refine List.perm_append_comm.trans ?_
  rw [List.append_assoc]
  exact List.perm_append_comm.append_left _

theorem Schema.mem_parts {s : Schema} {p : Part} :
    p ∈ s.parts ↔
      p = .schema s.name ∨
        ∃ table t, s.tables.get? table = some t ∧ p ∈ t.parts := by
  simp only [parts, List.mem_cons, List.mem_flatMap, SortedMap.mem_values_iff]
  refine or_congr Iff.rfl ?_
  constructor
  · rintro ⟨t, ⟨table, ht⟩, hp⟩
    exact ⟨table, t, ht, hp⟩
  · rintro ⟨table, t, ht, hp⟩
    exact ⟨t, ⟨table, ht⟩, hp⟩

namespace Model.Named

variable {m : Model}

theorem table_of_schema (hm : m.Named) {name table : String} {s : Schema}
    {t : Table} (hs : m.schemas.get? name = some s)
    (ht : s.tables.get? table = some t) : t.Named ⟨name, table⟩ :=
  hm.table (table?_eq_some_iff.2 ⟨s, hs, ht⟩)

theorem has_iff_mem_parts (hm : m.Named) {path : TablePath} {t : Table}
    (ht : m.table? path = some t) {p : Part} (hp : p.tablePath? = some path) :
    m.Has p ↔ p ∈ t.parts := by
  rw [(hm.table ht).mem_parts]
  cases p with
  | schema name => cases hp
  | table path' =>
      cases hp
      simp [has_table, ht]
  | column path' name =>
      cases hp
      simp [has_column, ht]
  | key path' columns =>
      cases hp
      simp [has_key, key?, ht]
  | reference id =>
      cases id
      cases hp
      simp [has_reference, reference?, ht]

/-- The listing has exactly the parts of the model. -/
theorem mem_parts (hm : m.Named) {p : Part} : p ∈ m.parts ↔ m.Has p := by
  simp only [parts, List.mem_flatMap, SortedMap.mem_values_iff,
    Schema.mem_parts]
  constructor
  · rintro ⟨s, ⟨name, hs⟩, rfl | ⟨table, t, ht, hp⟩⟩
    · exact has_schema.2 ⟨s, by rw [hm.schema_name hs]; exact hs⟩
    · have hnamed := hm.table_of_schema hs ht
      exact (hm.has_iff_mem_parts (table?_eq_some_iff.2 ⟨s, hs, ht⟩)
        (hnamed.tablePath?_of_mem hp)).2 hp
  · intro h
    cases hp : p.tablePath? with
    | none =>
        cases p <;> cases hp
        obtain ⟨s, hs⟩ := has_schema.1 h
        exact ⟨s, ⟨_, hs⟩, Or.inl (by rw [hm.schema_name hs])⟩
    | some path =>
        obtain ⟨t, ht⟩ := table_of_has hp h
        obtain ⟨s, hs, hget⟩ := table?_eq_some_iff.1 ht
        exact ⟨s, ⟨_, hs⟩,
          Or.inr ⟨_, t, hget, (hm.has_iff_mem_parts ht hp).1 h⟩⟩

/-- The rows of a part are those of the entity that is found under its names. -/
theorem storageKeyOf?_part (hm : m.Named) {p : Part} {e : Entity}
    (h : m.entity p.address = .ok e) : m.storageKeyOf? e = some p.storageKey := by
  cases p with
  | schema name =>
      obtain ⟨s, hs, rfl⟩ := map_eq_ok.1 h
      rw [← hm.schema_name (schema_eq_ok_iff.1 hs)]
      rfl
  | table path =>
      obtain ⟨t, ht, rfl⟩ := map_eq_ok.1 h
      rw [← (hm.table (table_eq_ok_iff.1 ht)).path_eq]
      rfl
  | column path name =>
      obtain ⟨c, hc, rfl⟩ := map_eq_ok.1 h
      obtain ⟨t, ht, hc⟩ := bind_eq_ok.1 hc
      obtain ⟨hmem, rfl⟩ := Table.column?_eq_some (Table.column_eq_ok_iff.1 hc)
      rw [← (hm.table (table_eq_ok_iff.1 ht)).column_table c hmem]
      rfl
  | key path columns =>
      obtain ⟨t, ht, h⟩ := bind_eq_ok.1 h
      obtain ⟨key, hkey, h⟩ := bind_eq_ok.1 h
      cases h
      obtain ⟨htable, hcolumns⟩ := hm.key (key?_eq_some_iff.2
        ⟨t, table_eq_ok_iff.1 ht, Table.key_eq_ok_iff.1 hkey⟩)
      rw [← htable, ← hcolumns]
      rfl
  | reference id =>
      obtain ⟨r, hr, rfl⟩ := map_eq_ok.1 h
      rw [← hm.reference_id (reference_eq_ok_iff.1 hr)]
      rfl

/-- Every part is listed once. -/
theorem nodup_parts (hm : m.Named) : m.parts.Nodup := by
  refine SortedMap.nodup_flatMap Part.schemaName ?_ ?_
  · intro name s hs p hp
    rcases Schema.mem_parts.1 hp with rfl | ⟨table, t, ht, hp⟩
    · exact hm.schema_name hs
    · have hpath := (hm.table_of_schema hs ht).tablePath?_of_mem hp
      exact Part.schemaName_of_tablePath? hpath
  · intro name s hs
    refine List.nodup_cons.2 ⟨?_, ?_⟩
    · intro hp
      obtain ⟨t, ht, hp⟩ := List.mem_flatMap.1 hp
      obtain ⟨table, hget⟩ := SortedMap.mem_values_iff.1 ht
      have hpath := (hm.table_of_schema hs hget).tablePath?_of_mem hp
      cases hpath
    · refine SortedMap.nodup_flatMap
        (fun p => (p.tablePath?.map TablePath.table).getD "") ?_ ?_
      · intro table t ht p hp
        rw [(hm.table_of_schema hs ht).tablePath?_of_mem hp]
        rfl
      · intro table t ht
        exact (hm.table_of_schema hs ht).nodup_parts

/-- What is left of a model has the parts that are not removed. -/
theorem parts_without (hm : m.Named) (r : Removal) :
    (m.without r).parts.Perm (m.parts.filter fun p => !r.removes p) := by
  refine (List.perm_ext_iff_of_nodup (hm.without r).nodup_parts
    (hm.nodup_parts.filter _)).2 fun p => ?_
  rw [(hm.without r).mem_parts, hm.has_without, List.mem_filter, hm.mem_parts,
    Bool.not_eq_true']

/-- What a removal of one part deletes from storage. -/
theorem purges_single (hm : m.Named) {r : Removal} {p : Part} (hp : m.Has p)
    (h : ∀ q, m.Has q → (r.removes q = true ↔ q = p)) :
    m.purges r = p.storageKey.purge m.systemSchema.name := by
  have hfilter : m.parts.filter r.removes = m.parts.filter (· == p) := by
    refine List.filter_congr fun q hq => ?_
    rw [Bool.eq_iff_iff, h q (hm.mem_parts.1 hq), beq_iff_eq]
  unfold purges
  rw [hfilter, List.filter_beq, List.count_eq_one_of_mem hm.nodup_parts
    (hm.mem_parts.2 hp)]
  simp

/-- What a removal of one table deletes from storage. -/
theorem purges_table (hm : m.Named) {path : TablePath} {t : Table}
    (ht : m.table? path = some t) :
    (m.purges (.within (.table path))).Perm (t.purge m.systemSchema.name) := by
  have hparts : (m.parts.filter (Removal.within (.table path)).removes).Perm
      t.parts := by
    refine (List.perm_ext_iff_of_nodup (hm.nodup_parts.filter _)
      (hm.table ht).nodup_parts).2 fun p => ?_
    rw [List.mem_filter, hm.mem_parts, Removal.removes_within_table,
      decide_eq_true_iff]
    constructor
    · rintro ⟨hp, hpath⟩
      exact (hm.has_iff_mem_parts ht hpath).1 hp
    · intro hp
      have hpath := (hm.table ht).tablePath?_of_mem hp
      exact ⟨(hm.has_iff_mem_parts ht hpath).2 hp, hpath⟩
  exact (hparts.flatMap_right _).trans ((hm.table ht).purge_perm _).symm

/-- What two removals delete from storage one after the other. -/
theorem purges_union (hm : m.Named) (r s : Removal) :
    (m.purges (r ∪ s)).Perm (m.purges r ++ (m.without r).purges s) := by
  have hfirst : (m.parts.filter (r ∪ s).removes).filter r.removes =
      m.parts.filter r.removes := by
    rw [List.filter_filter]
    congr 1
    funext p
    rw [Removal.removes_union]
    cases r.removes p <;> rfl
  have hthen : (m.parts.filter (r ∪ s).removes).filter
      (fun p => !r.removes p) =
        (m.parts.filter fun p => !r.removes p).filter s.removes := by
    rw [List.filter_filter, List.filter_filter]
    congr 1
    funext p
    rw [Removal.removes_union]
    cases r.removes p <;> cases s.removes p <;> rfl
  have hsplit := List.filter_append_perm r.removes
    (m.parts.filter (r ∪ s).removes)
  rw [hfirst, hthen] at hsplit
  have hleft := ((hm.parts_without r).filter s.removes).symm
  unfold purges
  rw [systemSchema_without, ← List.flatMap_append]
  exact (hsplit.symm.trans (hleft.append_left _)).flatMap_right _

end Model.Named

end GovernedCatalog
