import GovernedCatalog.Proofs.Introspection.Grouping
import GovernedCatalog.Proofs.Introspection.Split
import GovernedCatalog.Proofs.Model.Remainder

/-!
# Duplicate constraints

Constraints over the same columns are names of one key or of one reference, in
every table of an introspected model, the tables of the system schema among them.
-/

namespace GovernedCatalog

namespace Table.Named

variable {t : Table} {path : TablePath} (ht : t.Named path)

include ht

theorem key?_of_mem {key : UniqueKey} (h : key ∈ t.keys.values) :
    t.key? key.columns = some key := by
  obtain ⟨columns, hget⟩ := SortedMap.mem_values_iff.1 h
  rw [(ht.key hget).2]
  exact hget

theorem mem_key_columns {columns : ColumnSet} :
    columns ∈ t.keys.values.map UniqueKey.columns ↔
      (t.key? columns).isSome = true := by
  rw [List.mem_map, Option.isSome_iff_exists]
  constructor
  · rintro ⟨key, hmem, rfl⟩
    exact ⟨key, ht.key?_of_mem hmem⟩
  · rintro ⟨key, hget⟩
    exact ⟨key, SortedMap.mem_values_iff.2 ⟨columns, hget⟩, (ht.key hget).2⟩

theorem nodup_key_columns : (t.keys.values.map UniqueKey.columns).Nodup :=
  SortedMap.nodup_map id fun hget => (ht.key hget).2

theorem mem_reference_mappings {mapping : ReferenceMap} :
    mapping ∈ t.references.map Reference.mapping ↔
      (t.reference? mapping).isSome = true := by
  rw [List.mem_map, Option.isSome_iff_exists]
  constructor
  · rintro ⟨r, hmem, rfl⟩
    exact ⟨r, ht.mem_references.1 hmem⟩
  · rintro ⟨r, hget⟩
    have hmapping := (ht.reference hget).2
    refine ⟨r, ht.mem_references.2 ?_, hmapping⟩
    rw [hmapping]
    exact hget

/-- All references of a table have its path in their identities. -/
theorem nodup_reference_mappings :
    (t.references.map Reference.mapping).Nodup := by
  have hids : t.references.map Reference.id =
      (t.references.map Reference.mapping).map (ReferenceId.mk path) := by
    rw [List.map_map]
    refine List.map_congr_left fun r hr => ?_
    have hsource := (ht.reference (ht.mem_references.1 hr)).1
    unfold Reference.id
    rw [hsource]
    rfl
  have hnodup := ht.nodup_references
  rw [hids] at hnodup
  exact hnodup.of_map

end Table.Named

namespace Dump

theorem mem_groupNames? {group : List UniqueRow}
    {names : SortedSet ConstraintName} (h : groupNames? group = some names)
    (c : ConstraintName) : c ∈ names ↔ ∃ row ∈ group, row.constraint = c := by
  cases group with
  | nil => cases h
  | cons first rest =>
      simp only [groupNames?, Option.some.injEq] at h
      rw [← h, SortedSet.mem_ofList, List.mem_map]

theorem isSome_groupNames? {group : List UniqueRow} :
    (groupNames? group).isSome = true ↔ ∃ row, row ∈ group := by
  cases group with
  | nil => simp [groupNames?]
  | cons first rest => simp [groupNames?]

theorem groupImprint?_eq_some {group : List ForeignKeyRow} {i : Imprint}
    (h : groupImprint? group = some i) :
    ∃ first rest, group = first :: rest ∧
      i.onDelete = ReferentialAction.ofText? first.deleteRule ∧
      i.onUpdate = ReferentialAction.ofText? first.updateRule ∧
      ∀ c, c ∈ i.constraints ↔ ∃ row ∈ group, row.constraint = c := by
  cases group with
  | nil => cases h
  | cons first rest =>
      simp only [groupImprint?, Option.some.injEq] at h
      refine ⟨first, rest, rfl, ?_, ?_, ?_⟩
      · rw [← h]
        rfl
      · rw [← h]
        rfl
      · intro c
        rw [← h, SortedSet.mem_ofList, List.mem_map]

theorem isSome_groupImprint? {group : List ForeignKeyRow} :
    (groupImprint? group).isSome = true ↔ ∃ row, row ∈ group := by
  cases group with
  | nil => simp [groupImprint?]
  | cons first rest => simp [groupImprint?]

variable (d : Dump) (settings : Settings)

theorem mem_sortedUniques {row : UniqueRow} {path : TablePath}
    {columns : ColumnSet} :
    row ∈ (d.sortedUniques settings).filter (·.Describes path columns) ↔
      row ∈ d.includedUniques settings ∧ row.Describes path columns := by
  simp [sortedUniques]

theorem mem_sortedForeignKeys {row : ForeignKeyRow} {id : ReferenceId} :
    row ∈ (d.sortedForeignKeys settings).filter (·.Describes id) ↔
      row ∈ d.includedForeignKeys settings ∧ row.Describes id := by
  simp [sortedForeignKeys]

/-- The first constraint of a reference has the least name. -/
theorem first_least (hapart : d.ConstraintsApart) {id : ReferenceId}
    {first : ForeignKeyRow} {rest : List ForeignKeyRow}
    (hgroup : (d.sortedForeignKeys settings).filter (·.Describes id) =
      first :: rest) :
    ∀ row ∈ d.includedForeignKeys settings, row.Describes id → row ≠ first →
      compare first.constraint row.constraint = .lt := by
  intro row hrow hdescribes hne
  have hmem : row ∈ first :: rest :=
    hgroup ▸ (d.mem_sortedForeignKeys settings).2 ⟨hrow, hdescribes⟩
  have hfirst := (d.mem_sortedForeignKeys settings).1
    (hgroup ▸ List.mem_cons_self : first ∈ _)
  have hsorted : (first :: rest).Pairwise fun a b =>
      Introspection.inOrder (fun row : ForeignKeyRow =>
        (row.constraint, row.source)) a b = true := by
    rw [← hgroup]
    exact (Introspection.pairwise_sorted _).filter _
  have hrest : row ∈ rest := (List.mem_cons.1 hmem).resolve_left hne
  have hle := Introspection.isLE_constraint_of_inOrder
    (List.rel_of_pairwise_cons hsorted hrest)
  have hconstraint : first.constraint ≠ row.constraint := by
    intro heq
    have hsource : first.source = row.source :=
      hfirst.2.1.trans hdescribes.1.symm
    have hincluded : ((d.includedForeignKeys settings).map fun row =>
        (row.constraint, row.source)).Nodup :=
      Introspection.included_apart (Introspection.included_apart
        hapart.foreignKeys)
    exact hne (List.inj_on_of_nodup_map hincluded hrow hfirst.1
      (Prod.ext heq.symm hsource.symm))
  cases hcompare : compare first.constraint row.constraint with
  | lt => rfl
  | eq => exact absurd (Std.LawfulEqOrd.eq_of_compare hcompare) hconstraint
  | gt =>
      simp [hcompare] at hle

end Dump

namespace Introspection

open Dump

/-- The keys and references of a table are those that constraints describe, with
the names of all of their constraints, and its keys know the references to them
from all tables of the model. -/
structure Deduplicated (d : Dump) (settings : Settings) (m : Model)
    (t : Table) : Prop where
  keys_nodup : (t.keys.values.map UniqueKey.columns).Nodup
  keys : ∀ columns, columns ∈ t.keys.values.map UniqueKey.columns ↔
    ∃ row ∈ d.includedUniques settings, row.Describes t.path columns
  key_constraints : ∀ key ∈ t.keys.values, ∀ c, c ∈ key.constraints ↔
    ∃ row ∈ d.includedUniques settings,
      row.Describes t.path key.columns ∧ row.constraint = c
  references_nodup : (t.references.map Reference.mapping).Nodup
  references : ∀ mapping, mapping ∈ t.references.map Reference.mapping ↔
    ∃ row ∈ d.includedForeignKeys settings, row.Describes ⟨t.path, mapping⟩
  reference_constraints : ∀ r ∈ t.references, ∀ c, c ∈ r.constraints ↔
    ∃ row ∈ d.includedForeignKeys settings,
      row.Describes ⟨t.path, r.mapping⟩ ∧ row.constraint = c
  /-- The actions are those of the constraint with the least name. -/
  reference_actions : ∀ r ∈ t.references,
    ∃ row ∈ d.includedForeignKeys settings,
      row.Describes ⟨t.path, r.mapping⟩ ∧
      (∀ other ∈ d.includedForeignKeys settings,
        other.Describes ⟨t.path, r.mapping⟩ → other ≠ row →
          compare row.constraint other.constraint = .lt) ∧
      ReferentialAction.ofText? row.deleteRule = some r.onDelete ∧
      ReferentialAction.ofText? row.updateRule = some r.onUpdate
  referencedBy : ∀ key ∈ t.keys.values, ∀ id, id ∈ key.referencedBy ↔
    ∃ source ∈ m.allTables, ∃ r ∈ source.references, r.id = id ∧
      r.mapping.target = t.path ∧ r.mapping.toColumns = key.columns

section Read

variable {d : Dump} {settings : Settings} {read result : Model}
  (hends : Ends settings read result)
  (hgrouped : Grouped (d.sortedUniques settings) (d.sortedForeignKeys settings)
    read)

include hgrouped

theorem isSome_key?_iff (path : TablePath) (columns : ColumnSet) :
    (read.key? path columns).isSome = true ↔
      ∃ row ∈ d.includedUniques settings, row.Describes path columns := by
  have hsome : (read.key? path columns).isSome =
      (read.keyNames? path columns).isSome := by
    simp [Model.keyNames?]
  rw [hsome, hgrouped.keyNames, isSome_groupNames?]
  simp only [mem_sortedUniques]

theorem isSome_reference?_iff (id : ReferenceId) :
    (read.reference? id).isSome = true ↔
      ∃ row ∈ d.includedForeignKeys settings, row.Describes id := by
  have hsome : (read.reference? id).isSome = (read.imprint? id).isSome := by
    simp [Model.imprint?]
  rw [hsome, hgrouped.imprint, isSome_groupImprint?]
  simp only [mem_sortedForeignKeys]

theorem mem_constraints_iff {path : TablePath} {columns : ColumnSet}
    {key : UniqueKey} (hkey : read.key? path columns = some key)
    (c : ConstraintName) :
    c ∈ key.constraints ↔
      ∃ row ∈ d.includedUniques settings,
        row.Describes path columns ∧ row.constraint = c := by
  have hnames : read.keyNames? path columns = some key.constraints := by
    rw [Model.keyNames?, hkey]
    rfl
  rw [hgrouped.keyNames] at hnames
  rw [mem_groupNames? hnames]
  simp only [mem_sortedUniques, and_assoc]

theorem imprint_of_reference? {id : ReferenceId} {r : Reference}
    (hr : read.reference? id = some r) :
    groupImprint? ((d.sortedForeignKeys settings).filter (·.Describes id)) =
      some r.imprint := by
  rw [← hgrouped.imprint, Model.imprint?, hr]
  rfl

theorem mem_reference_constraints_iff {id : ReferenceId} {r : Reference}
    (hr : read.reference? id = some r) (c : ConstraintName) :
    c ∈ r.constraints ↔
      ∃ row ∈ d.includedForeignKeys settings,
        row.Describes id ∧ row.constraint = c := by
  have himprint : r.constraints = r.imprint.constraints := rfl
  obtain ⟨_, _, _, _, _, hnames⟩ :=
    groupImprint?_eq_some (imprint_of_reference? hgrouped hr)
  rw [himprint, hnames]
  simp only [mem_sortedForeignKeys, and_assoc]

theorem actions_of_least (hapart : d.ConstraintsApart) {id : ReferenceId}
    {r : Reference} (hr : read.reference? id = some r) :
    ∃ row ∈ d.includedForeignKeys settings, row.Describes id ∧
      (∀ other ∈ d.includedForeignKeys settings, other.Describes id →
        other ≠ row → compare row.constraint other.constraint = .lt) ∧
      ReferentialAction.ofText? row.deleteRule = some r.onDelete ∧
      ReferentialAction.ofText? row.updateRule = some r.onUpdate := by
  obtain ⟨first, rest, hgroup, hdelete, hupdate, _⟩ :=
    groupImprint?_eq_some (imprint_of_reference? hgrouped hr)
  have hfirst := (d.mem_sortedForeignKeys settings).1
    (hgroup ▸ List.mem_cons_self : first ∈ _)
  have hleast := d.first_least settings hapart hgroup
  exact ⟨first, hfirst.1, hfirst.2, hleast, hdelete.symm, hupdate.symm⟩

/-- No constraint is about a value map that was not there. -/
theorem deduplicated_of_valueMap {schema : String}
    (hnone : read.table? (ValueMap.table schema).path = none) :
    Deduplicated d settings result (ValueMap.table schema) := by
  have hunique : ∀ columns, ¬∃ row ∈ d.includedUniques settings,
      row.Describes (ValueMap.table schema).path columns := by
    intro columns
    rw [← isSome_key?_iff hgrouped, Model.key?, hnone]
    simp
  have hforeignKey : ∀ mapping, ¬∃ row ∈ d.includedForeignKeys settings,
      row.Describes ⟨(ValueMap.table schema).path, mapping⟩ := by
    intro mapping
    rw [← isSome_reference?_iff hgrouped, Model.reference?, hnone]
    simp
  have hkeys : (ValueMap.table schema).keys.values = [] := rfl
  have hreferences : (ValueMap.table schema).references = [] := rfl
  exact
    { keys_nodup := by simp [hkeys]
      keys := fun columns => by simpa [hkeys] using hunique columns
      key_constraints := by simp [hkeys]
      references_nodup := by simp [hreferences]
      references := fun mapping => by
        simpa [hreferences] using hforeignKey mapping
      reference_constraints := by simp [hreferences]
      reference_actions := by simp [hreferences]
      referencedBy := by simp [hkeys] }

include hends

omit hgrouped in
theorem mem_referencedBy_iff {path : TablePath} {columns : ColumnSet}
    {key : UniqueKey} (hkey : read.key? path columns = some key)
    (id : ReferenceId) :
    id ∈ key.referencedBy ↔
      ∃ source ∈ result.allTables, ∃ r ∈ source.references, r.id = id ∧
        r.mapping.target = path ∧ r.mapping.toColumns = columns := by
  rw [hends.reading.closed.mem_referencedBy hkey, Model.has_reference,
    ← Option.isSome_iff_exists, hends.isSome_reference?_iff]
  constructor
  · rintro ⟨⟨source, hsource, r, hr, rfl⟩, htarget, hcolumns⟩
    exact ⟨source, hsource, r, hr, rfl, htarget, hcolumns⟩
  · rintro ⟨source, hsource, r, hr, rfl, htarget, hcolumns⟩
    exact ⟨⟨source, hsource, r, hr, rfl⟩, htarget, hcolumns⟩

theorem deduplicated_of_read (hapart : d.ConstraintsApart) {path : TablePath}
    {t : Table} (ht : read.table? path = some t) :
    Deduplicated d settings result t := by
  have hnamed := (hends.reading.closed.table ht).toNamed
  have hpath := hnamed.path_eq
  subst hpath
  have hkeys : ∀ columns, read.key? t.path columns = t.key? columns := by
    intro columns
    rw [Model.key?, ht, Option.bind_some]
  have hreferences : ∀ mapping,
      read.reference? ⟨t.path, mapping⟩ = t.reference? mapping := by
    intro mapping
    rw [Model.reference?, ht, Option.bind_some]
  have hkey : ∀ {key : UniqueKey}, key ∈ t.keys.values →
      read.key? t.path key.columns = some key :=
    fun hmem => (hkeys _).trans (hnamed.key?_of_mem hmem)
  have hreference : ∀ {r : Reference}, r ∈ t.references →
      read.reference? ⟨t.path, r.mapping⟩ = some r :=
    fun hmem => (hreferences _).trans (hnamed.mem_references.1 hmem)
  exact
    { keys_nodup := hnamed.nodup_key_columns
      keys := by
        intro columns
        rw [hnamed.mem_key_columns, ← hkeys, isSome_key?_iff hgrouped]
      key_constraints := fun key hmem =>
        mem_constraints_iff hgrouped (hkey hmem)
      references_nodup := hnamed.nodup_reference_mappings
      references := by
        intro mapping
        rw [hnamed.mem_reference_mappings, ← hreferences,
          isSome_reference?_iff hgrouped]
      reference_constraints := fun r hmem =>
        mem_reference_constraints_iff hgrouped (hreference hmem)
      reference_actions := fun r hmem =>
        actions_of_least hgrouped hapart (hreference hmem)
      referencedBy := fun key hmem => mem_referencedBy_iff hends (hkey hmem) }

end Read

/-- On every table of an introspected model the keys and references are those
that constraints describe, each one once. -/
theorem run_deduplicated {d : Dump} {settings : Settings}
    (hapart : d.ConstraintsApart) {result : Introspection}
    (h : run d.reader settings = .ok result) :
    ∀ t ∈ result.model.allTables, Deduplicated d settings result.model t := by
  obtain ⟨read, hends, hgrouped⟩ := run_ends (readStructure_grouped d settings)
    (grouped_kept _ _) result h
  intro t ht
  rcases hends.read_or_new ht with ⟨path, hpath⟩ | ⟨rfl, hnone⟩
  · exact deduplicated_of_read hends hgrouped hapart hpath
  · exact deduplicated_of_valueMap hgrouped hnone

theorem library_runs : ∃ result, run library.reader .standard = .ok result := by
  have huniques : library.sortedUniques .standard = library.uniques.reverse :=
    (sorted_eq_of_perm (List.reverse_perm _).symm (by decide)).trans
      (List.mergeSort_of_pairwise (by decide))
  have hforeignKeys : library.sortedForeignKeys .standard =
      library.foreignKeys.reverse :=
    (sorted_eq_of_perm (List.reverse_perm _).symm (by decide)).trans
      (List.mergeSort_of_pairwise (by decide))
  have hsome : (run library.reader .standard).toOption.isSome = true := by
    unfold run
    rw [readStructure_eq, huniques, hforeignKeys]
    decide +kernel
  obtain ⟨result, hresult⟩ := Option.isSome_iff_exists.1 hsome
  exact ⟨result, toOption_eq_some_iff.1 hresult⟩

theorem run_deduplicated_library :
    library.ConstraintsApart ∧
      ∃ result, run library.reader .standard = .ok result ∧
        ∀ t ∈ result.model.allTables,
          Deduplicated library .standard result.model t := by
  obtain ⟨result, hresult⟩ := library_runs
  exact ⟨library_apart.toConstraintsApart, result, hresult,
    run_deduplicated library_apart.toConstraintsApart hresult⟩

end Introspection

end GovernedCatalog
