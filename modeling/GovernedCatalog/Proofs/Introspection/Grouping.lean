import GovernedCatalog.Proofs.Entity.Mapping
import GovernedCatalog.Proofs.Introspection.Addressable
import GovernedCatalog.Proofs.Introspection.RowOrder
import GovernedCatalog.Proofs.Model.Overlay

/-!
# Constraints grouped by what they describe

Rows of constraints fall into groups: those that describe one key, and those that
describe one reference.  After any rows have been entered, the keys and
references of the model are the groups, named by all rows of the group, and a
reference has the actions of the first row of its group.
-/

namespace GovernedCatalog

theorem SortedSet.ofList_concat {α : Type u} [Ord α] [Std.TransOrd α]
    (l : List α) (a : α) :
    SortedSet.ofList (l ++ [a]) = (SortedSet.ofList l).insert a := by
  simp [SortedSet.ofList, List.foldl_append]

namespace Dump

/-- The row is a constraint of the key over the columns of a table. -/
def UniqueRow.Describes (row : UniqueRow) (path : TablePath)
    (columns : ColumnSet) : Prop :=
  row.table = path ∧ SortedSet.ofList row.columns = columns

instance (row : UniqueRow) (path : TablePath) (columns : ColumnSet) :
    Decidable (row.Describes path columns) :=
  inferInstanceAs (Decidable (_ ∧ _))

/-- The row is a constraint of the reference with the identity. -/
def ForeignKeyRow.Describes (row : ForeignKeyRow) (id : ReferenceId) : Prop :=
  row.source = id.source ∧
    id.mapping.Lists row.target (row.sourceColumns.zip row.targetColumns)

instance (row : ForeignKeyRow) (id : ReferenceId) :
    Decidable (row.Describes id) :=
  inferInstanceAs (Decidable (_ ∧ _))

/-- What a row leaves on a new reference. -/
def ForeignKeyRow.imprint (row : ForeignKeyRow) : Imprint :=
  ⟨.ofList [row.constraint], ReferentialAction.ofText? row.deleteRule,
    ReferentialAction.ofText? row.updateRule⟩

/-- The names of the key that a group of rows describes. -/
def groupNames? : List UniqueRow → Option (SortedSet ConstraintName)
  | [] => none
  | group => some (.ofList (group.map (·.constraint)))

/-- What a group of rows leaves on the reference that it describes. -/
def groupImprint? : List ForeignKeyRow → Option Imprint
  | [] => none
  | first :: rest =>
      some { first.imprint with
        constraints := .ofList ((first :: rest).map (·.constraint)) }

theorem groupNames?_concat (group : List UniqueRow) (row : UniqueRow) :
    groupNames? (group ++ [row]) =
      some (((groupNames? group).getD ∅).insert row.constraint) := by
  cases group with
  | nil => rfl
  | cons first rest =>
      have hnames := SortedSet.ofList_concat
        ((first :: rest).map (·.constraint)) row.constraint
      simp only [groupNames?, List.cons_append, Option.getD_some, ← hnames]
      simp

theorem groupImprint?_concat (group : List ForeignKeyRow)
    (row : ForeignKeyRow) :
    groupImprint? (group ++ [row]) =
      some (((groupImprint? group).map (·.addConstraint row.constraint)).getD
        row.imprint) := by
  cases group with
  | nil => rfl
  | cons first rest =>
      have hnames := SortedSet.ofList_concat
        ((first :: rest).map (·.constraint)) row.constraint
      simp only [groupImprint?, List.cons_append, Option.map_some,
        Option.getD_some, Imprint.addConstraint, ← hnames]
      simp

end Dump

namespace Introspection

open Dump

variable {settings : Settings} {m m' : Model}

/-! ## Keys -/

theorem resolveColumns_eq_ok {constraint : ConstraintName} {path : TablePath}
    {names : List String} {columns : ColumnSet}
    (h : resolveColumns m constraint path names = .ok columns) :
    columns = .ofList names := by
  unfold resolveColumns at h
  cases ht : m.table? path with
  | none => simp [ht] at h
  | some t =>
      simp only [ht] at h
      cases hfind : names.find? fun name => !t.hasColumn name with
      | none => simpa [hfind, eq_comm] using h
      | some name => simp [hfind] at h

/-- The key with another name, before its comment is set. -/
theorem addUnique_eq_ok {row : UniqueRow} (h : addUnique m row = .ok m') :
    ∃ keyed, m.addKey row.table (.ofList row.columns) (some row.constraint) =
        .ok keyed ∧
      Model.SameImprints keyed m' := by
  obtain ⟨columns, hcolumns, h⟩ := bind_eq_ok.1 h
  rw [resolveColumns_eq_ok hcolumns] at h
  obtain ⟨keyed, hkeyed, h⟩ := bind_eq_ok.1 h
  cases h
  exact ⟨keyed, hkeyed, .updateKey row.table _ fun _ => rfl⟩

theorem keyNames?_addUnique {row : UniqueRow} (h : addUnique m row = .ok m')
    (path : TablePath) (columns : ColumnSet) :
    m'.keyNames? path columns =
      if row.Describes path columns then
        some (((m.keyNames? path columns).getD ∅).insert row.constraint)
      else m.keyNames? path columns := by
  obtain ⟨keyed, hkeyed, hsame⟩ := addUnique_eq_ok h
  obtain ⟨t, ht, _, rfl⟩ := Model.addKey_eq_ok hkeyed
  rw [hsame.keyNames]
  unfold Model.keyNames?
  rw [Model.key?_addKey ht]
  by_cases hdescribes : row.Describes path columns
  · rw [if_pos ⟨hdescribes.1.symm, hdescribes.2.symm⟩, if_pos hdescribes]
    cases m.key? path columns <;> rfl
  · have hother : ¬(path = row.table ∧ columns = .ofList row.columns) :=
      fun h => hdescribes ⟨h.1.symm, h.2.symm⟩
    rw [if_neg hother, if_neg hdescribes]

theorem imprint?_addUnique {row : UniqueRow} (h : addUnique m row = .ok m')
    (id : ReferenceId) : m'.imprint? id = m.imprint? id := by
  obtain ⟨keyed, hkeyed, hsame⟩ := addUnique_eq_ok h
  obtain ⟨t, ht, _, rfl⟩ := Model.addKey_eq_ok hkeyed
  rw [hsame.imprint]
  unfold Model.imprint?
  rw [Model.reference?_updateTable]
  by_cases hsource : id.source = row.table
  · rw [if_pos hsource, Model.reference?, hsource]
    rfl
  · rw [if_neg hsource]

/-! ## References -/

theorem referentialAction_eq_ok {rule : String} {action : ReferentialAction}
    (h : referentialAction rule = .ok action) :
    ReferentialAction.ofText? rule = some action := by
  unfold referentialAction at h
  cases hrule : ReferentialAction.ofText? rule with
  | none => simp [hrule] at h
  | some action' => simpa [hrule] using h

/-- The reference with another name, before its comment is set. -/
theorem addForeignKey_eq_ok {row : ForeignKeyRow}
    (h : addForeignKey m row = .ok m') :
    ∃ mapping onDelete onUpdate linked,
      row.Describes ⟨row.source, mapping⟩ ∧
      ReferentialAction.ofText? row.deleteRule = some onDelete ∧
      ReferentialAction.ofText? row.updateRule = some onUpdate ∧
      m.addReference row.source mapping (some row.constraint) onDelete
        onUpdate = .ok linked ∧
      Model.SameImprints linked m' := by
  unfold addForeignKey at h
  extract_lets enter resolve check at h
  have hcheck : check () = .ok m' := by
    by_cases hlengths : row.sourceColumns.length ≠ row.targetColumns.length
    · rw [if_pos hlengths] at h
      cases h
    · rwa [if_neg hlengths] at h
  obtain ⟨_, _, h⟩ := bind_eq_ok.1 hcheck
  obtain ⟨targets, _, h⟩ := bind_eq_ok.1 h
  obtain ⟨target, _, h⟩ := bind_eq_ok.1 h
  have hresolve : resolve () = .ok m' := by
    by_cases hkey : target.keys.contains targets = true
    · rwa [if_pos hkey] at h
    · rw [if_neg hkey] at h
      cases h
  cases hmapping : ReferenceMap.ofPairs row.target
      (row.sourceColumns.zip row.targetColumns) with
  | error fault => simp [resolve, hmapping, bind, Except.bind, throw, throwThe,
      MonadExceptOf.throw] at hresolve
  | ok mapping =>
      simp only [resolve, hmapping, pure_bind] at hresolve
      obtain ⟨onDelete, hdelete, h⟩ := bind_eq_ok.1 hresolve
      obtain ⟨onUpdate, hupdate, h⟩ := bind_eq_ok.1 h
      obtain ⟨linked, hlinked, h⟩ := bind_eq_ok.1 h
      cases h
      exact ⟨mapping, onDelete, onUpdate, linked,
        ⟨rfl, ReferenceMap.lists_of_ofPairs hmapping⟩,
        referentialAction_eq_ok hdelete, referentialAction_eq_ok hupdate,
        hlinked, .updateReference row.source mapping fun _ => rfl⟩

/-- A row describes one reference only. -/
theorem describes_iff {row : ForeignKeyRow} {id id' : ReferenceId}
    (h : row.Describes id) : row.Describes id' ↔ id' = id := by
  constructor
  · intro h'
    have hsource : id'.source = id.source := h'.1.symm.trans h.1
    have hmapping : id'.mapping = id.mapping := h'.2.unique h.2
    cases id
    cases id'
    cases hsource
    cases hmapping
    rfl
  · rintro rfl
    exact h

theorem imprint?_addForeignKey {row : ForeignKeyRow}
    (h : addForeignKey m row = .ok m') (id : ReferenceId) :
    m'.imprint? id =
      if row.Describes id then
        some (((m.imprint? id).map (·.addConstraint row.constraint)).getD
          row.imprint)
      else m.imprint? id := by
  obtain ⟨mapping, onDelete, onUpdate, linked, hdescribes, hdelete, hupdate,
    hlinked, hsame⟩ := addForeignKey_eq_ok h
  obtain ⟨_, ⟨t, ht, _⟩, rfl⟩ := Model.addReference_eq_ok hlinked
  rw [hsame.imprint]
  unfold Model.imprint?
  rw [Model.reference?_updateKey, Model.reference?_addReference ht]
  simp only [describes_iff hdescribes]
  change Option.map _ (if id = ⟨row.source, mapping⟩ then _ else _) = _
  by_cases hid : id = ⟨row.source, mapping⟩
  · rw [if_pos hid, if_pos hid]
    cases m.reference? id with
    | some r => rfl
    | none =>
        simp only [ForeignKeyRow.imprint, hdelete, hupdate]
        rfl
  · rw [if_neg hid, if_neg hid]

theorem keyNames?_addForeignKey {row : ForeignKeyRow}
    (h : addForeignKey m row = .ok m') (path : TablePath)
    (columns : ColumnSet) :
    m'.keyNames? path columns = m.keyNames? path columns := by
  obtain ⟨mapping, onDelete, onUpdate, linked, _, _, _, hlinked, hsame⟩ :=
    addForeignKey_eq_ok h
  obtain ⟨_, _, rfl⟩ := Model.addReference_eq_ok hlinked
  rw [hsame.keyNames]
  unfold Model.keyNames?
  rw [Model.key?_updateKey]
  simp only [Model.key?_addReference]
  by_cases hkey : path = mapping.target ∧ columns = mapping.toColumns
  · obtain ⟨rfl, rfl⟩ := hkey
    rw [if_pos ⟨rfl, rfl⟩, Option.map_map]
    rfl
  · rw [if_neg hkey]

/-! ## Groups -/

/-- The keys and references of a model are the groups of the rows. -/
structure Grouped (uniques : List UniqueRow) (foreignKeys : List ForeignKeyRow)
    (m : Model) : Prop where
  keyNames : ∀ path columns, m.keyNames? path columns =
    groupNames? (uniques.filter (·.Describes path columns))
  imprint : ∀ id, m.imprint? id =
    groupImprint? (foreignKeys.filter (·.Describes id))

theorem grouped_kept (uniques : List UniqueRow)
    (foreignKeys : List ForeignKeyRow) : Kept (Grouped uniques foreignKeys) := by
  have hsame : ∀ {m m' : Model}, Model.SameImprints m m' →
      Grouped uniques foreignKeys m → Grouped uniques foreignKeys m' := by
    intro m m' h hm
    exact ⟨fun path columns => (h.keyNames path columns).trans
      (hm.keyNames path columns), fun id => (h.imprint id).trans (hm.imprint id)⟩
  exact
    { setAnnotations := fun a annotations => hsame (.setAnnotations a annotations)
      setAcls := fun a acls => hsame (.setAcls a acls)
      setBindings := fun a bindings => hsame (.setBindings a bindings) }

namespace Grouped

variable {uniques : List UniqueRow} {foreignKeys : List ForeignKeyRow}

theorem addUnique (hm : Grouped uniques foreignKeys m) (row : UniqueRow) :
    Ensures (addUnique m row) (Grouped (uniques ++ [row]) foreignKeys) := by
  intro m' h
  constructor
  · intro path columns
    rw [keyNames?_addUnique h, hm.keyNames, List.filter_append]
    by_cases hrow : row.Describes path columns
    · rw [if_pos hrow, ← groupNames?_concat]
      simp [hrow]
    · rw [if_neg hrow]
      simp [hrow]
  · intro id
    rw [imprint?_addUnique h, hm.imprint]

theorem addForeignKey (hm : Grouped uniques foreignKeys m)
    (row : ForeignKeyRow) :
    Ensures (addForeignKey m row) (Grouped uniques (foreignKeys ++ [row])) := by
  intro m' h
  constructor
  · intro path columns
    rw [keyNames?_addForeignKey h, hm.keyNames]
  · intro id
    rw [imprint?_addForeignKey h, hm.imprint, List.filter_append]
    by_cases hrow : row.Describes id
    · rw [if_pos hrow, ← groupImprint?_concat]
      simp [hrow]
    · rw [if_neg hrow]
      simp [hrow]

end Grouped

/-! ## The rows before the constraints -/

/-- No table of the model has keys or references. -/
def Unconstrained (m : Model) : Prop :=
  ∀ path t, m.table? path = some t → t.keys = ∅ ∧ t.foreignKeys = ∅

theorem Unconstrained.grouped (hm : Unconstrained m) : Grouped [] [] m where
  keyNames path columns := by
    unfold Model.keyNames? Model.key?
    cases ht : m.table? path with
    | none => rfl
    | some t => simp [Table.key?, (hm path t ht).1, groupNames?]
  imprint id := by
    unfold Model.imprint? Model.reference?
    cases ht : m.table? id.source with
    | none => rfl
    | some t => simp [Table.reference?, (hm id.source t ht).2, groupImprint?]

theorem Unconstrained.putTable (hm : Unconstrained m) (path : TablePath)
    {t : Table} (ht : t.keys = ∅ ∧ t.foreignKeys = ∅) :
    Unconstrained (m.putTable path t) := by
  intro path' t' ht'
  rw [Model.table?_putTable] at ht'
  by_cases hpath : path' = path
  · rw [if_pos hpath, Option.some.injEq] at ht'
    exact ht' ▸ ht
  · rw [if_neg hpath] at ht'
    exact hm path' t' ht'

theorem Unconstrained.addSchema (hm : Unconstrained m) (row : SchemaRow) :
    Unconstrained (addSchema m row) := by
  have htable : (Introspection.addSchema m row).table? = m.table? := by
    funext path
    unfold Introspection.addSchema Model.table? Model.updateSchema
      Model.ensureSchema
    rw [SortedMap.get?_modify_getOrInsert]
    by_cases hschema : path.schema = row.name
    · rw [if_pos hschema, ← hschema]
      cases m.schemas.get? path.schema <;> rfl
    · rw [if_neg hschema]
  intro path t ht
  rw [htable] at ht
  exact hm path t ht

theorem Unconstrained.addSchemas (hm : Unconstrained m)
    (rows : List SchemaRow) :
    Unconstrained (rows.foldl Introspection.addSchema m) := by
  induction rows generalizing m with
  | nil => exact hm
  | cons row rest ih => exact ih (hm.addSchema row)

theorem ensured_unconstrained (hm : Unconstrained m) (path : TablePath)
    (kind : String) :
    Ensures (ensured path kind (m.table? path)) fun t =>
      t.keys = ∅ ∧ t.foreignKeys = ∅ := by
  intro t h
  obtain ⟨kind, _, rfl⟩ := map_eq_ok.1 h
  cases ht : m.table? path with
  | none => exact ⟨rfl, rfl⟩
  | some t => exact hm path t ht

theorem addColumns_unconstrained (hm : Unconstrained m) (row : ColumnsRow) :
    Ensures (addColumns settings m row) fun r => Unconstrained r.1 := by
  rw [addColumns_eq]
  intro result h
  obtain ⟨⟨t, dropped⟩, hextended, rfl⟩ := map_eq_ok.1 h
  obtain ⟨columns, _, h⟩ := bind_eq_ok.1 hextended
  obtain ⟨base, hbase, h⟩ := bind_eq_ok.1 h
  obtain ⟨extended, hcolumns, h⟩ := bind_eq_ok.1 h
  cases h
  have hstart := ensured_unconstrained hm row.table row.kind base hbase
  have hkept : Ensures (columns.foldlM (fun t c => Table.addColumn t c.1)
      { base with comment := row.comment.or base.comment }) fun t =>
        t.keys = ∅ ∧ t.foreignKeys = ∅ := by
    apply Ensures.foldlM
    · intro t c _ ht t' h
      rw [(Table.addColumn_eq_ok h).2]
      exact ht
    · exact hstart
  exact hm.putTable row.table (hkept _ hcolumns)

theorem addAllColumns_unconstrained (hm : Unconstrained m)
    (rows : List ColumnsRow) :
    Ensures (addAllColumns settings m rows) fun r => Unconstrained r.1 := by
  induction rows generalizing m with
  | nil => exact .ok hm
  | cons row rest ih =>
      refine .bind (addColumns_unconstrained hm row) fun first hfirst => ?_
      exact .bind (ih hfirst) fun others hothers => .ok hothers

theorem addTable_unconstrained (hm : Unconstrained m) (row : TableRow) :
    Ensures (addTable m row) Unconstrained := by
  rw [addTable_eq]
  intro result h
  obtain ⟨t, hdescribed, rfl⟩ := map_eq_ok.1 h
  obtain ⟨base, hbase, rfl⟩ := map_eq_ok.1 hdescribed
  exact hm.putTable row.table
    (ensured_unconstrained hm row.table row.kind base hbase)

/-! ## Dumps -/

end Introspection

namespace Dump

variable (d : Dump) (settings : Settings)

/-- The unique constraints that are not on excluded schemas. -/
def includedUniques : List UniqueRow :=
  Introspection.included settings (·.table.schema) d.uniques

/-- The foreign key constraints with no excluded schema at either end. -/
def includedForeignKeys : List ForeignKeyRow :=
  Introspection.included settings (·.target.schema)
    (Introspection.included settings (·.source.schema) d.foreignKeys)

def sortedUniques : List UniqueRow :=
  (d.includedUniques settings).mergeSort
    (Introspection.inOrder fun row => (row.constraint, row.table))

def sortedForeignKeys : List ForeignKeyRow :=
  (d.includedForeignKeys settings).mergeSort
    (Introspection.inOrder fun row => (row.constraint, row.source))

/-- The structure that the dump's schemas and tables have with constraints that
are added in the given order. -/
def structureWith (uniques : List UniqueRow) (foreignKeys : List ForeignKeyRow) :
    Except Error (Model × List String) := do
  let empty := Model.fresh settings.naming.systemSchema
  let schemas := Introspection.included settings SchemaRow.name d.schemas
  let columns := Introspection.included settings (·.table.schema) d.columns
  let tables := Introspection.included settings (·.table.schema) d.tables
  let (m, dropped) ← Introspection.addAllColumns settings
    (schemas.foldl Introspection.addSchema empty) columns
  let m ← tables.foldlM Introspection.addTable m
  let m ← uniques.foldlM Introspection.addUnique m
  let m ← foreignKeys.foldlM Introspection.addForeignKey m
  return (m, dropped)

end Dump

namespace Introspection

theorem readStructure_eq (d : Dump) (settings : Settings) :
    readStructure d.reader settings = d.structureWith settings
      (d.sortedUniques settings) (d.sortedForeignKeys settings) := rfl

/-- The structure that is read from a dump has a key and a reference for each
group of constraints. -/
theorem readStructure_grouped (d : Dump) (settings : Settings) :
    Ensures (readStructure d.reader settings) fun r =>
      Grouped (d.sortedUniques settings) (d.sortedForeignKeys settings) r.1 := by
  intro result h
  rw [readStructure_eq] at h
  obtain ⟨⟨withColumns, dropped⟩, hcolumns, h⟩ := bind_eq_ok.1 h
  obtain ⟨withTables, htables, h⟩ := bind_eq_ok.1 h
  obtain ⟨withKeys, hkeys, h⟩ := bind_eq_ok.1 h
  obtain ⟨m, hreferences, h⟩ := bind_eq_ok.1 h
  cases h
  have hempty : Unconstrained (.fresh settings.naming.systemSchema) := by
    intro path t ht
    cases ht
  have hcolumned := addAllColumns_unconstrained
    (hempty.addSchemas (included settings (·.name) d.schemas)) _ _ hcolumns
  have htabled : Unconstrained withTables :=
    Ensures.foldlM (fun m row _ hm => addTable_unconstrained hm row) hcolumned
      _ htables
  have hkeyed : Grouped (d.sortedUniques settings) [] withKeys :=
    Ensures.foldlM_prefix (P := fun rows => Grouped rows [])
      (fun rows m row hm => hm.addUnique row) htabled.grouped
      (d.sortedUniques settings) _ hkeys
  exact Ensures.foldlM_prefix (P := fun rows => Grouped _ rows)
    (fun rows m row hm => hm.addForeignKey row) hkeyed
    (d.sortedForeignKeys settings) _ hreferences

end Introspection

end GovernedCatalog
