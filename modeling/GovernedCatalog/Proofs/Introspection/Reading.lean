import GovernedCatalog.Introspection.Structure
import GovernedCatalog.Proofs.Model.Document

/-!
# Reading the structure of a database

What each step of entering a row keeps holds of the structure that is read.  While
the rows of a database are entered, the model is closed and its system schema is
empty.
-/

namespace GovernedCatalog

namespace Model

theorem updateSchema_congr {m : Model} {name : String} {s : Schema}
    (hs : m.schemas.get? name = some s) {f g : Schema → Schema}
    (hfg : f s = g s) : m.updateSchema name f = m.updateSchema name g := by
  have hschemas : m.schemas.modify name f = m.schemas.modify name g := by
    refine SortedMap.ext_get? fun name' => ?_
    simp only [SortedMap.get?_modify, hs, Option.map_some, hfg]
  unfold updateSchema
  rw [hschemas]

/-- A schema of a closed model gets an empty table unless it has one of the
name. -/
theorem Closed.ensureTable {m : Model} (hm : m.Closed) {schema name : String}
    {s : Schema} (hs : m.schemas.get? schema = some s) (kind : TableKind) :
    (m.updateSchema schema fun s =>
      { s with
        tables := s.tables.getOrInsert name (.fresh schema name kind) }).Closed := by
  by_cases hcontains : s.tables.contains name = true
  · rw [updateSchema_congr hs (g := id) (by simp [SortedMap.getOrInsert, hcontains])]
    exact hm.updateSchema schema (fun _ => rfl) fun _ => rfl
  · have hfresh : (Table.fresh schema name kind).Unlinked ⟨schema, name⟩ :=
      .of_empty rfl rfl rfl
    refine hm.addTable (t := .fresh schema name kind) hfresh.toWellFormed
      hfresh.no_links hfresh.no_reference ?_
    have hadd : s.addTable (.fresh schema name kind) = .ok
        { s with tables := s.tables.insert name (.fresh schema name kind) } :=
      if_neg hcontains
    rw [Model.addTable, schema_eq_ok_iff.2 hs]
    change (s.addTable (.fresh schema name kind) >>= _) = _
    rw [hadd]
    change Except.ok _ = _
    rw [Except.ok.injEq]
    refine updateSchema_congr hs ?_
    simp [SortedMap.getOrInsert, hcontains]

end Model

namespace Introspection

open Dump

/-! ## What every row keeps -/

/-- A property that is kept by each step of entering a row. -/
structure Enterable (settings : Settings) (P : Model → Prop) : Prop where
  addSchema : ∀ {m}, P m → ∀ row, P (addSchema m row)
  ensureTable : ∀ {m}, P m → ∀ path kind, Ensures (ensureTable m path kind) P
  addColumn : ∀ {m}, P m → ∀ {row name position read},
    readColumn settings row name position = .ok read →
      Ensures (m.addColumn row.table read.1) P
  addKey : ∀ {m}, P m → ∀ path columns constraint?,
    Ensures (m.addKey path columns constraint?) P
  addReference : ∀ {m}, P m → ∀ source mapping constraint? onDelete onUpdate,
    Ensures (m.addReference source mapping constraint? onDelete onUpdate) P
  commentTable : ∀ {m}, P m →
    ∀ (path : TablePath) (comment : Option String → Option String),
      P (m.updateTable path fun t => { t with comment := comment t.comment })
  commentKey : ∀ {m}, P m → ∀ (path : TablePath) (columns : ColumnSet)
    (comment : Option String → Option String),
      P (m.updateTable path fun t => t.updateKey columns fun key =>
        { key with comment := comment key.comment })
  commentReference : ∀ {m}, P m → ∀ (path : TablePath) (mapping : ReferenceMap)
    (comment : Option String → Option String),
      P (m.updateTable path fun t => t.updateReference mapping fun r =>
        { r with comment := comment r.comment })

namespace Enterable

variable {settings : Settings} {P : Model → Prop} (hP : Enterable settings P)
  {m : Model} (hm : P m)

include hP hm

theorem addSchemas (rows : List SchemaRow) :
    P (rows.foldl Introspection.addSchema m) := by
  induction rows generalizing m with
  | nil => exact hm
  | cons row rest ih => exact ih (hP.addSchema hm row)

theorem addColumns (row : ColumnsRow) :
    Ensures (addColumns settings m row) fun result => P result.1 := by
  unfold Introspection.addColumns
  intro result h
  obtain ⟨columns, hcolumns, h⟩ := bind_eq_ok.1 h
  obtain ⟨m₁, hm₁, h⟩ := bind_eq_ok.1 h
  obtain ⟨m₂, hm₂, h⟩ := bind_eq_ok.1 h
  cases h
  have hstart := hP.commentTable (hP.ensureTable hm row.table row.kind m₁ hm₁)
    row.table row.comment.or
  refine Ensures.foldlM (fun m c hc hm => ?_) hstart m₂ hm₂
  obtain ⟨⟨name, position⟩, _, hread⟩ := (mem_mapM_iff hcolumns).1 hc
  exact hP.addColumn hm hread

theorem addAllColumns (rows : List ColumnsRow) :
    Ensures (addAllColumns settings m rows) fun result => P result.1 := by
  induction rows generalizing m with
  | nil => exact .ok hm
  | cons row rest ih =>
      refine .bind (hP.addColumns hm row) fun first hfirst => ?_
      exact .bind (ih hfirst) fun others hothers => .ok hothers

theorem addTable (row : TableRow) : Ensures (addTable m row) P :=
  .bind (hP.ensureTable hm row.table row.kind) fun _ hm₁ =>
    .ok (hP.commentTable hm₁ row.table (·.or row.comment))

theorem addUnique (row : UniqueRow) : Ensures (addUnique m row) P := by
  refine .after fun columns => ?_
  refine .bind (hP.addKey hm row.table columns (some row.constraint)) ?_
  exact fun m₁ hm₁ => .ok (hP.commentKey hm₁ row.table columns (·.or row.comment))

theorem addForeignKey (row : ForeignKeyRow) : Ensures (addForeignKey m row) P := by
  unfold Introspection.addForeignKey
  -- The steps after the checks of the mapping, its target and its lengths.
  extract_lets enter resolve check
  have henter : ∀ mapping, Ensures (enter mapping) P := by
    intro mapping
    refine .after fun onDelete => .after fun onUpdate => ?_
    refine .bind (hP.addReference hm row.source mapping (some row.constraint)
      onDelete onUpdate) fun m₁ hm₁ => .ok ?_
    exact hP.commentReference hm₁ row.source mapping (·.or row.comment)
  have hresolve : ∀ u, Ensures (resolve u) P := by
    intro u
    cases hmapping : ReferenceMap.ofPairs row.target
        (row.sourceColumns.zip row.targetColumns) with
    | ok mapping => simpa only [resolve, hmapping, pure_bind] using henter mapping
    | error fault => simpa only [resolve, hmapping] using .error_bind
  have hcheck : ∀ u, Ensures (check u) P := by
    intro u
    refine .after fun _ => .after fun targets => .after fun target => ?_
    exact .ite (hresolve ()) .error_bind
  exact .ite .error_bind (hcheck ())

omit hm in
/-- What holds of the empty model holds of the structure that is read. -/
theorem readStructure (hempty : P (.fresh settings.naming.systemSchema))
    (reader : Reader) :
    Ensures (readStructure reader settings) fun result => P result.1 := by
  unfold Introspection.readStructure
  extract_lets empty
  refine .after fun schemaRows => ?_
  extract_lets schemas withSchemas
  have hschemas : P withSchemas := hP.addSchemas hempty schemas
  refine .after fun columnRows => ?_
  extract_lets columns
  refine .bind (hP.addAllColumns hschemas columns) fun result hcolumns => ?_
  obtain ⟨withColumns, dropped⟩ := result
  refine .after fun tableRows => ?_
  extract_lets tables
  refine .bind (.foldlM (fun m row _ hm => hP.addTable hm row) hcolumns)
    fun withTables htables => .after fun uniqueRows => ?_
  extract_lets uniques
  refine .bind (.foldlM (fun m row _ hm => hP.addUnique hm row) htables)
    fun withKeys hkeys => .after fun foreignKeyRows => ?_
  extract_lets foreignKeys
  exact .bind (.foldlM (fun m row _ hm => hP.addForeignKey hm row) hkeys)
    fun m hm => .ok hm

end Enterable

/-! ## Closed models -/

/-- A model that is closed and whose system schema is empty. -/
structure Reading (settings : Settings) (m : Model) : Prop where
  closed : m.Closed
  system : m.systemSchema = .fresh settings.naming.systemSchema

theorem readColumn_stored (settings : Settings) (row : ColumnsRow)
    (name : String) (position : Nat) :
    Ensures (readColumn settings row name position) fun result =>
      ∃ type default? nullable comment,
        result.1 = { Column.stored row.table name position type default? with
          nullable := nullable
          comment := comment } := by
  unfold readColumn
  cases row.types[position]? with
  | none => exact .error
  | some spelling =>
      refine .after fun type => ?_
      cases type.default? (textAt row.defaults position) with
      | ok value? => exact .ok ⟨_, _, _, _, rfl⟩
      | error e => exact .ok ⟨_, _, _, _, rfl⟩

theorem reading_enterable (settings : Settings) :
    Enterable settings (Reading settings) where
  addSchema hm row :=
    ⟨(hm.closed.ensureSchema row.name).updateSchema row.name (fun _ => rfl)
      fun _ => rfl, hm.system⟩
  ensureTable {m} hm path kind := by
    unfold ensureTable
    refine .after fun kind => .ok ⟨?_, hm.system⟩
    have hs : (m.ensureSchema path.schema).schemas.get? path.schema =
        some ((m.schemas.get? path.schema).getD (.fresh path.schema)) :=
      (SortedMap.get?_getOrInsert ..).trans (if_pos rfl)
    exact (hm.closed.ensureSchema path.schema).ensureTable hs kind
  addColumn := by
    intro m hm row name position read hread m' h
    obtain ⟨_, _, _, _, heq⟩ := Model.addColumn_eq_ok h
    have htable : read.1.table = row.table := by
      obtain ⟨_, _, _, _, hstored⟩ := readColumn_stored _ _ _ _ read hread
      rw [hstored]
      rfl
    exact ⟨hm.closed.addColumn htable h, heq ▸ hm.system⟩
  addKey hm path columns constraint? := by
    intro m' h
    obtain ⟨_, _, _, heq⟩ := Model.addKey_eq_ok h
    exact ⟨hm.closed.addKey h, heq ▸ hm.system⟩
  addReference hm source mapping constraint? onDelete onUpdate := by
    intro m' h
    obtain ⟨_, _, heq⟩ := Model.addReference_eq_ok h
    exact ⟨hm.closed.addReference h, heq ▸ hm.system⟩
  commentTable hm path comment :=
    ⟨hm.closed.updateTable_of_same path (fun _ => rfl) (fun _ => rfl)
      (fun _ => rfl) fun _ => rfl, hm.system⟩
  commentKey hm path columns comment :=
    ⟨hm.closed.updateKey path columns (fun _ => rfl) (fun _ => rfl) fun _ => rfl,
      hm.system⟩
  commentReference hm path mapping comment :=
    ⟨hm.closed.updateReference path mapping (fun _ => rfl) fun _ => rfl,
      hm.system⟩

/-- The structure that is read is closed. -/
theorem readStructure_ensures (reader : Reader) (settings : Settings) :
    Ensures (readStructure reader settings) fun result =>
      Reading settings result.1 :=
  (reading_enterable settings).readStructure ⟨Model.fresh_closed _, rfl⟩ reader

end Introspection

end GovernedCatalog
