import GovernedCatalog.Proofs.Entity.Mapping
import GovernedCatalog.Proofs.Introspection.Overlaid
import GovernedCatalog.Proofs.Introspection.StoredRow
import GovernedCatalog.Proofs.Model.History

/-!
# Purging what was loaded

The stored rows of an entity are deleted by its storage key, while they are loaded
by the names in their targets.  A row that names a key or a reference by columns
in another order than theirs is loaded, but the storage key does not select it.
-/

/-!
## Storage keys and the targets of rows

A storage key selects the rows whose targets have its values, and a row is
attached to the entity that its target names.  All rows that the key of an entity
selects name this entity.  The converse holds of the rows that list their columns
in order.
-/

namespace GovernedCatalog

namespace Dump.Target

/-- What the target has in a column by which rows are keyed. -/
def value? (t : Target) : String → Option KeyValue
  | "schema_name" => t.schema.map .text
  | "table_name" => t.table.map .text
  | "column_name" => t.column.map .text
  | "column_names" => t.columns.map .textArray
  | "from_schema_name" => t.sourceSchema.map .text
  | "from_table_name" => t.sourceTable.map .text
  | "from_column_names" => t.sourceColumns.map .textArray
  | "to_schema_name" => t.targetSchema.map .text
  | "to_table_name" => t.targetTable.map .text
  | "to_column_names" => t.targetColumns.map .textArray
  | _ => none

/-- The columns of a key, or the referencing columns of a reference, are listed
in order and once. -/
def InOrder (t : Target) : StorageKind → Prop
  | .key => ∀ columns, t.columns = some columns →
      columns.Pairwise fun a b => compare a b = .lt
  | .keyReference => ∀ columns, t.sourceColumns = some columns →
      columns.Pairwise fun a b => compare a b = .lt
  | _ => True

variable {t : Target} {a : Address}

theorem tablePath?_eq_some_iff {path : TablePath} :
    t.tablePath? = some path ↔
      t.schema = some path.schema ∧ t.table = some path.table := by
  unfold tablePath?
  simp only [Option.bind_eq_bind, Option.bind_eq_some_iff, Option.pure_def,
    Option.some.injEq]
  constructor
  · rintro ⟨schema, hschema, table, htable, rfl⟩
    exact ⟨hschema, htable⟩
  · rintro ⟨hschema, htable⟩
    exact ⟨_, hschema, _, htable, rfl⟩

theorem referenceId?_eq_some_iff {id : ReferenceId} :
    t.referenceId? = some id ↔
      t.sourceSchema = some id.source.schema ∧
        t.sourceTable = some id.source.table ∧
        t.targetSchema = some id.mapping.target.schema ∧
        t.targetTable = some id.mapping.target.table ∧
        ∃ sources targets, t.sourceColumns = some sources ∧
          t.targetColumns = some targets ∧ sources.length = targets.length ∧
          ReferenceMap.ofPairs id.mapping.target (sources.zip targets) =
            .ok id.mapping := by
  unfold referenceId?
  simp only [Option.bind_eq_bind, Option.bind_eq_some_iff]
  constructor
  · rintro ⟨schema, hschema, table, htable, schema', hschema', table', htable',
      sources, hsources, targets, htargets, h⟩
    by_cases hlength : sources.length ≠ targets.length
    · rw [if_pos hlength] at h
      cases h
    · rw [if_neg hlength] at h
      cases hmapping : ReferenceMap.ofPairs ⟨schema', table'⟩
          (sources.zip targets) with
      | error fault => simp [hmapping] at h
      | ok mapping =>
          simp only [hmapping] at h
          cases h
          have htarget := (ReferenceMap.lists_of_ofPairs hmapping).1
          refine ⟨hschema, htable, ?_, ?_, sources, targets, hsources, htargets,
            not_ne_iff.1 hlength, ?_⟩
          · rw [htarget]
            exact hschema'
          · rw [htarget]
            exact htable'
          · rw [htarget]
            exact hmapping
  · rintro ⟨hschema, htable, hschema', htable', sources, targets, hsources,
      htargets, hlength, hmapping⟩
    refine ⟨_, hschema, _, htable, _, hschema', _, htable', sources, hsources,
      targets, htargets, ?_⟩
    have hmapping' : ReferenceMap.ofPairs
        ⟨id.mapping.target.schema, id.mapping.target.table⟩
        (sources.zip targets) = .ok id.mapping := hmapping
    rw [if_neg (not_ne_iff.2 hlength), hmapping']
    rfl

end Dump.Target

namespace StorageKey

/-- The condition on the rows of the entity holds of rows with the target. -/
def Selects (key : StorageKey) (target : Dump.Target) : Prop :=
  ∀ c ∈ key.columns, target.value? c.1 = some c.2

def text? (key : StorageKey) (column : String) : Option String :=
  match key.columns.lookup column with
  | some (.text s) => some s
  | _ => none

def texts? (key : StorageKey) (column : String) : Option (List String) :=
  match key.columns.lookup column with
  | some (.textArray items) => some items
  | _ => none

/-- The target with exactly the values of the key. -/
def target (key : StorageKey) : Dump.Target where
  schema := key.text? "schema_name"
  table := key.text? "table_name"
  column := key.text? "column_name"
  columns := key.texts? "column_names"
  sourceSchema := key.text? "from_schema_name"
  sourceTable := key.text? "from_table_name"
  sourceColumns := key.texts? "from_column_names"
  targetSchema := key.text? "to_schema_name"
  targetTable := key.text? "to_table_name"
  targetColumns := key.texts? "to_column_names"

end StorageKey

namespace Part

/-- The target has the names of the part, the columns in any order. -/
def NamedBy (target : Dump.Target) : Part → Prop
  | schema name => target.schema = some name
  | table path => target.tablePath? = some path
  | column path name =>
      target.tablePath? = some path ∧ target.column = some name
  | key path columns =>
      target.tablePath? = some path ∧
        ∃ names, target.columns = some names ∧ .ofList names = columns
  | reference id => target.referenceId? = some id

variable {p q : Part} {target : Dump.Target} {kind : StorageKind}

theorem address?_eq_some_iff :
    target.address? kind = some p.address ↔
      kind = p.storageKey.kind ∧ p.NamedBy target := by
  cases p <;> cases kind <;>
    simp [Dump.Target.address?, address, NamedBy, storageKey, Schema.storageKey,
      Table.storageKey, Column.storageKey, UniqueKey.storageKey,
      Reference.storageKey, Option.bind_eq_some_iff]

/-- The rows of a part have its names, the columns in order. -/
theorem selects_iff :
    p.storageKey.Selects target ↔
      match p with
      | schema name => target.schema = some name
      | table path => target.tablePath? = some path
      | column path name =>
          target.tablePath? = some path ∧ target.column = some name
      | key path columns =>
          target.tablePath? = some path ∧ target.columns = some columns.elems
      | reference id =>
          target.sourceSchema = some id.source.schema ∧
            target.sourceTable = some id.source.table ∧
            target.sourceColumns = some id.mapping.sources ∧
            target.targetSchema = some id.mapping.target.schema ∧
            target.targetTable = some id.mapping.target.table ∧
            target.targetColumns = some id.mapping.targets := by
  cases p <;>
    simp [StorageKey.Selects, storageKey, Schema.storageKey, Schema.fresh,
      Table.storageKey, Table.fresh, Column.storageKey, Column.stored,
      UniqueKey.storageKey, UniqueKey.fresh, Reference.storageKey,
      Reference.fresh, Dump.Target.value?, Dump.Target.tablePath?_eq_some_iff,
      and_assoc]

theorem selects_target (p : Part) :
    p.storageKey.Selects p.storageKey.target := by
  rw [selects_iff]
  cases p with
  | schema name => rfl
  | table path => rfl
  | column path name => exact ⟨rfl, rfl⟩
  | key path columns => exact ⟨rfl, rfl⟩
  | reference id => exact ⟨rfl, rfl, rfl, rfl, rfl, rfl⟩

/-- The rows of a part name the part. -/
theorem namedBy_of_selects (h : p.storageKey.Selects target) :
    p.NamedBy target := by
  rw [selects_iff] at h
  cases p with
  | schema name => exact h
  | table path => exact h
  | column path name => exact h
  | key path columns => exact ⟨h.1, _, h.2, SortedSet.ofList_elems columns⟩
  | reference id =>
      obtain ⟨hschema, htable, hcolumns, hschema', htable', hcolumns'⟩ := h
      refine Dump.Target.referenceId?_eq_some_iff.2 ⟨hschema, htable, hschema',
        htable', _, _, hcolumns, hcolumns', ?_, ?_⟩
      · simp [ReferenceMap.sources, ReferenceMap.targets, SortedMap.keys,
          SortedMap.values]
      · rw [ReferenceMap.zip_sources_targets, ReferenceMap.ofPairs_entries]

/-- A row that names a part is one of its rows exactly if it lists the columns in
order. -/
theorem selects_iff_inOrder (h : p.NamedBy target) :
    p.storageKey.Selects target ↔ target.InOrder p.storageKey.kind := by
  rw [selects_iff]
  cases p with
  | schema name => exact iff_of_true h trivial
  | table path => exact iff_of_true h trivial
  | column path name => exact iff_of_true h trivial
  | key path columns =>
      obtain ⟨hpath, names, hnames, rfl⟩ := h
      change _ ↔ ∀ columns, target.columns = some columns → _
      simp only [hpath, hnames, true_and, Option.some.injEq, forall_eq']
      constructor
      · intro heq
        rw [heq]
        exact (SortedSet.ofList names).increasing
      · intro hnames
        exact congrArg SortedSet.elems
          (SortedSet.ofList_elems ⟨names, hnames⟩).symm
  | reference id =>
      obtain ⟨hschema, htable, hschema', htable', sources, targets, hsources,
        htargets, hlength, hmapping⟩ := Dump.Target.referenceId?_eq_some_iff.1 h
      change _ ↔ ∀ columns, target.sourceColumns = some columns → _
      simp only [hschema, htable, hschema', htable', hsources, htargets, true_and,
        Option.some.injEq, forall_eq']
      constructor
      · rintro ⟨rfl, _⟩
        exact List.pairwise_map.2 id.mapping.pairs.increasing
      · intro hordered
        have hfirst : (sources.zip targets).map Prod.fst = sources :=
          List.map_fst_zip (Nat.le_of_eq hlength)
        have hsecond : (sources.zip targets).map Prod.snd = targets :=
          List.map_snd_zip (Nat.le_of_eq hlength.symm)
        have hincrease : KeysIncrease (sources.zip targets) := by
          rw [← hfirst] at hordered
          exact List.pairwise_map.1 hordered
        have hentries : id.mapping.pairs.entries = sources.zip targets :=
          SortedMap.keysIncrease_ext id.mapping.pairs.increasing hincrease
            fun _ => (ReferenceMap.lists_of_ofPairs hmapping).2.mem_iff
        unfold ReferenceMap.sources ReferenceMap.targets SortedMap.keys
          SortedMap.values
        rw [hentries]
        exact ⟨hfirst.symm, hsecond.symm⟩

theorem storageKey_injective : Function.Injective storageKey := by
  intro p q h
  have hp := address?_eq_some_iff.2 ⟨rfl, namedBy_of_selects p.selects_target⟩
  have hq := address?_eq_some_iff.2 ⟨rfl, namedBy_of_selects q.selects_target⟩
  rw [h, hq, Option.some.injEq] at hp
  cases p <;> cases q <;> cases hp <;> rfl

end Part

/-- The part that an entity is. -/
def Entity.part? : Entity → Option Part
  | catalog | foreignKey _ => none
  | schema s => some (.schema s.name)
  | table t => some (.table t.path)
  | column c => some (.column c.table c.name)
  | key k => some (.key k.table k.columns)
  | reference r => some (.reference r.id)

theorem Entity.address_of_part? {e : Entity} {p : Part} (h : e.part? = some p) :
    e.address = p.address := by
  cases e <;> cases h <;> rfl

namespace Model

theorem storageKeyOf?_of_part? (m : Model) {e : Entity} {p : Part}
    (h : e.part? = some p) : m.storageKeyOf? e = some p.storageKey := by
  cases e <;> cases h <;> rfl

end Model

namespace Table.Named

variable {t : Table} {path : TablePath} (ht : t.Named path)

include ht

theorem filterMap_part? :
    (t.entities.map Prod.snd).filterMap Entity.part? = t.parts := by
  have hforeignKeys : t.foreignKeys.values.filterMap
      (fun fk => Entity.part? (.foreignKey fk)) = [] :=
    List.filterMap_eq_nil_iff.2 fun _ _ => rfl
  rw [ht.parts_eq]
  simp only [entities, List.map_cons, List.map_append, List.map_map,
    List.filterMap_cons, List.filterMap_append, List.filterMap_map,
    Function.comp_def, hforeignKeys, List.append_nil]
  simp only [Entity.part?, List.filterMap_eq_map']

end Table.Named

namespace Model

variable {m : Model}

/-- The entities of the visible schemas. -/
def visibleEntities (m : Model) : List Entity :=
  (m.schemas.values.flatMap Schema.entities).map Prod.snd

theorem mem_visibleEntities {e : Entity} :
    e ∈ m.visibleEntities ↔
      ∃ name s, m.schemas.get? name = some s ∧
        (e = .schema s ∨ ∃ table t, s.tables.get? table = some t ∧
          e ∈ t.entities.map Prod.snd) := by
  simp only [visibleEntities, Schema.entities, List.map_flatMap, List.map_cons,
    List.mem_flatMap, List.mem_cons, SortedMap.mem_values_iff]
  constructor
  · rintro ⟨s, ⟨name, hs⟩, rfl | ⟨t, ⟨table, ht⟩, he⟩⟩
    · exact ⟨name, s, hs, Or.inl rfl⟩
    · exact ⟨name, s, hs, Or.inr ⟨table, t, ht, he⟩⟩
  · rintro ⟨name, s, hs, rfl | ⟨table, t, ht, he⟩⟩
    · exact ⟨s, ⟨name, hs⟩, Or.inl rfl⟩
    · exact ⟨s, ⟨name, hs⟩, Or.inr ⟨t, ⟨table, ht⟩, he⟩⟩

namespace Named

variable (hm : m.Named)

include hm

/-- What is listed of the visible schemas is found at its address. -/
theorem visible?_of_mem {e : Entity} (he : e ∈ m.visibleEntities) :
    m.visible? e.address = some e := by
  obtain ⟨name, s, hs, rfl | ⟨table, t, ht, he⟩⟩ := mem_visibleEntities.1 he
  · change (m.schemas.get? s.name).map Entity.schema = _
    rw [hm.schema_name hs, hs]
    rfl
  · obtain ⟨hpath, hentity⟩ := (hm.table_of_schema hs ht).entity?_of_mem he
    rw [visible?_in_table hpath, table?_eq_some_iff.2 ⟨s, hs, ht⟩]
    exact hentity

theorem filterMap_part? : m.visibleEntities.filterMap Entity.part? = m.parts := by
  unfold visibleEntities parts
  rw [List.map_flatMap, List.filterMap_flatMap]
  refine List.flatMap_congr fun s hs => ?_
  obtain ⟨name, hs⟩ := SortedMap.mem_values_iff.1 hs
  unfold Schema.entities Schema.parts
  rw [List.map_cons, List.filterMap_cons, List.map_flatMap,
    List.filterMap_flatMap]
  refine congrArg (Part.schema s.name :: ·) (List.flatMap_congr fun t ht => ?_)
  obtain ⟨table, ht⟩ := SortedMap.mem_values_iff.1 ht
  exact (hm.table_of_schema hs ht).filterMap_part?

theorem storageKeyOf?_of_mem {e : Entity} (he : e ∈ m.visibleEntities) :
    m.storageKeyOf? e = e.part?.map Part.storageKey := by
  cases e with
  | catalog =>
      obtain ⟨name, s, hs, he | ⟨table, t, ht, he⟩⟩ := mem_visibleEntities.1 he
      · cases he
      · cases ((hm.table_of_schema hs ht).entity?_of_mem he).1
  | _ => rfl

/-- The storage keys of the visible entities are those of the parts. -/
theorem filterMap_storageKeyOf? :
    m.visibleEntities.filterMap m.storageKeyOf? =
      m.parts.map Part.storageKey := by
  rw [← hm.filterMap_part?, List.map_filterMap]
  exact List.filterMap_congr fun e he => hm.storageKeyOf?_of_mem he

end Named

end Model

namespace Introspection

open Model

/-- The rows that the storage key of a visible entity of a closed model selects
are about this entity, and no two visible entities have the same key. -/
theorem storageKeys_resolve {m : Model} (hm : m.Closed) :
    (∀ e ∈ m.visibleEntities, ∀ key, m.storageKeyOf? e = some key →
        key.Selects key.target ∧
          ∀ target, key.Selects target →
            resolve? m key.kind target = some (e.address, e)) ∧
      (m.visibleEntities.filterMap m.storageKeyOf?).Nodup := by
  constructor
  · intro e he key hkey
    rw [hm.named.storageKeyOf?_of_mem he] at hkey
    obtain ⟨p, hp, rfl⟩ := Option.map_eq_some_iff.1 hkey
    refine ⟨p.selects_target, fun target htarget => ?_⟩
    have haddress : target.address? p.storageKey.kind = some e.address := by
      rw [Entity.address_of_part? hp]
      exact Part.address?_eq_some_iff.2 ⟨rfl, Part.namedBy_of_selects htarget⟩
    exact resolve?_eq_some_iff.2 ⟨haddress, hm.named.visible?_of_mem he⟩
  · rw [hm.named.filterMap_storageKeyOf?]
    exact hm.named.nodup_parts.map Part.storageKey_injective

theorem storageKeys_resolve_staff :
    let m := (fresh "sys").after staff
    m.Closed ∧
      (∀ e ∈ m.visibleEntities, ∀ key, m.storageKeyOf? e = some key →
        key.Selects key.target ∧
          ∀ target, key.Selects target →
            resolve? m key.kind target = some (e.address, e)) ∧
      (m.visibleEntities.filterMap m.storageKeyOf?).Nodup := by
  have hclosed := after_closed (fresh_closed "sys") staff_built
  exact ⟨hclosed, storageKeys_resolve hclosed⟩

end Introspection

end GovernedCatalog

/-! ## Loaded rows and the keys of their entities -/

namespace GovernedCatalog

theorem Entity.part?_of_address {e : Entity} {p : Part}
    (h : e.address = p.address) : e.part? = some p := by
  cases e <;> cases p <;> cases h <;> rfl

namespace Dump

theorem Target.exists_part {t : Target} {kind : StorageKind} {a : Address}
    (h : t.address? kind = some a) (ha : a ≠ .catalog) :
    ∃ p : Part, p.address = a := by
  cases a with
  | catalog => exact absurd rfl ha
  | schema name => exact ⟨.schema name, rfl⟩
  | table path => exact ⟨.table path, rfl⟩
  | column path name => exact ⟨.column path name, rfl⟩
  | key path columns => exact ⟨.key path columns, rfl⟩
  | foreignKey path columns =>
      exact absurd rfl (Target.address?_ne_foreignKey h path columns)
  | reference id => exact ⟨.reference id, rfl⟩

/-- The table of the system schema that the row is from. -/
def StoredRow.storedIn : StoredRow → String
  | annotation kind _ => kind.annotationTable
  | acl kind _ => kind.aclTable
  | binding kind _ => kind.bindingTable

/-- The statements that delete rows of a kind go through all tables that rows of
the kind are read from. -/
theorem storedIn_mem_tables {d : Dump} {settings : Settings} {row : StoredRow}
    (h : row ∈ d.storedRows settings) : row.storedIn ∈ row.kind.tables := by
  obtain ⟨kind, _, h⟩ := List.mem_flatMap.1 h
  unfold storedFor at h
  rcases List.mem_append.1 h with h | h
  · obtain ⟨_, _, rfl⟩ := List.mem_map.1 h
    exact List.mem_cons_self
  · cases hpolicy : settings.introspection.loadPolicy with
    | false => simp [hpolicy] at h
    | true =>
        rw [hpolicy, if_pos rfl, List.mem_append] at h
        rcases h with h | h
        · cases hacls : kind.hasAcls with
          | false => simp [hacls] at h
          | true =>
              rw [hacls, if_pos rfl] at h
              obtain ⟨_, _, rfl⟩ := List.mem_map.1 h
              simp [StorageKind.tables, StoredRow.kind, hacls, StoredRow.storedIn]
        · cases hbindings : kind.hasBindings with
          | false => simp [hbindings] at h
          | true =>
              rw [hbindings, if_pos rfl] at h
              obtain ⟨_, _, rfl⟩ := List.mem_map.1 h
              simp [StorageKind.tables, StoredRow.kind, hbindings,
                StoredRow.storedIn]

end Dump

namespace Introspection

open Dump

theorem selects_iff_of_address {m : Model} {kind : StorageKind} {target : Target}
    {e : Entity} (h : target.address? kind = some e.address)
    (he : e.address ≠ .catalog) :
    ∃ key, m.storageKeyOf? e = some key ∧ key.kind = kind ∧
      (key.Selects target ↔ target.InOrder kind) := by
  obtain ⟨p, hp⟩ := Target.exists_part h he
  rw [← hp] at h
  obtain ⟨rfl, hnamed⟩ := Part.address?_eq_some_iff.1 h
  exact ⟨_, m.storageKeyOf?_of_part? (Entity.part?_of_address hp.symm), rfl,
    Part.selects_iff_inOrder hnamed⟩

theorem address?_of_place? {m : Model} {row : StoredRow} {a : Address}
    {key : Overlay.Key} (h : row.place? m = some (a, key)) :
    row.target.address? row.kind = some a := by
  obtain ⟨_, hresolve, _⟩ := place?_eq_some_iff.1 h
  exact (resolve?_eq_some_iff.1 hresolve).1

/-- Every stored row that was loaded, other than for the catalog itself, is about
an entity whose statements go through the table of the row, and they delete the
row exactly if it lists the columns of its key or reference in order. -/
theorem run_purged {d : Dump} {settings : Settings} {result : Introspection}
    (h : run d.reader settings = .ok result) :
    ∃ base, readStructure d.reader settings =
        .ok (base, result.report.droppedDefaults) ∧
      ∀ row ∈ d.storedRows settings, ∀ a key,
        row.place? base = some (a, key) → a ≠ .catalog →
          ∃ e ∈ result.model.entities.map Prod.snd, e.address = a ∧
            ∃ storage, result.model.storageKeyOf? e = some storage ∧
              row.storedIn ∈ storage.kind.tables ∧
              (storage.Selects row.target ↔ row.target.InOrder row.kind) := by
  obtain ⟨base, p, hbase, hlaid, _, hends⟩ := run_laid h
  refine ⟨base, hbase, fun row hrow a key hplace ha => ?_⟩
  obtain ⟨e, he, rfl⟩ := hends.exists_placed hlaid hplace
  obtain ⟨storage, hstorage, hkind, hselects⟩ :=
    selects_iff_of_address (m := result.model) (address?_of_place? hplace) ha
  refine ⟨e, he, rfl, storage, hstorage, ?_, hselects⟩
  rw [hkind]
  exact storedIn_mem_tables hrow

theorem run_purged_archive :
    ∃ result, run archive.reader .standard = .ok result ∧
      ∃ base, readStructure archive.reader .standard =
          .ok (base, result.report.droppedDefaults) ∧
        ∀ row ∈ archive.storedRows .standard, ∀ a key,
          row.place? base = some (a, key) → a ≠ .catalog →
            ∃ e ∈ result.model.entities.map Prod.snd, e.address = a ∧
              ∃ storage, result.model.storageKeyOf? e = some storage ∧
                row.storedIn ∈ storage.kind.tables ∧
                (storage.Selects row.target ↔ row.target.InOrder row.kind) := by
  obtain ⟨result, hresult, _⟩ := archive_runs
  exact ⟨result, hresult, run_purged hresult⟩

/-- The row of a key that lists the columns in another order. -/
def shuffled : StoredRow :=
  StoredRow.annotation .key
    ⟨{ tableTarget "shelf" "books" with columns := some ["title", "author"] },
      "order", .null⟩

theorem shuffled_placed :
    ((readStructure archive.reader .standard).toOption.bind fun r =>
        shuffled.place? r.1) =
      some (.key ⟨"shelf", "books"⟩ (.ofList ["author", "title"]),
        Overlay.Key.annotation "order") := by
  rw [readStructure_archive]
  decide +kernel

/-- The row is loaded, and no statement for its key deletes it. -/
theorem shuffled_unpurged :
    shuffled ∈ archive.storedRows .standard ∧
      ∃ result, run archive.reader .standard = .ok result ∧
        ∃ base, readStructure archive.reader .standard =
            .ok (base, result.report.droppedDefaults) ∧
          ∃ a key, shuffled.place? base = some (a, key) ∧
            ∃ e ∈ result.model.entities.map Prod.snd, e.address = a ∧
              ∃ storage, result.model.storageKeyOf? e = some storage ∧
                ¬storage.Selects shuffled.target := by
  have hstored : shuffled ∈ archive.storedRows .standard := by
    have hlisted : archive.hasTable ⟨Settings.standard.naming.systemSchema,
        StorageKind.key.annotationTable⟩ = true := by decide
    refine List.mem_flatMap.2 ⟨.key, by decide, List.mem_append_left _
      (List.mem_map.2 ⟨_, ?_, rfl⟩)⟩
    rw [listedRows, if_pos hlisted]
    exact List.mem_singleton.2 rfl
  obtain ⟨result, hresult, _⟩ := archive_runs
  obtain ⟨base, p, hbase, hlaid, _, hends⟩ := run_laid hresult
  have hplace := shuffled_placed
  rw [hbase] at hplace
  obtain ⟨e, he, haddress⟩ := hends.exists_placed hlaid hplace
  have htarget := address?_of_place? hplace
  rw [← haddress] at htarget
  obtain ⟨storage, hstorage, _, hselects⟩ := selects_iff_of_address
    (m := result.model) htarget (by rw [haddress]; simp)
  refine ⟨hstored, result, hresult, base, hbase, _, _, hplace, e, he, haddress,
    storage, hstorage, fun h => ?_⟩
  have hordered := hselects.1 h _ rfl
  revert hordered
  decide

end Introspection

end GovernedCatalog
