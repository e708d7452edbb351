import GovernedCatalog.Proofs.Document.Relinking

/-!
# Schemas from their descriptions

The tables of a described schema are all built before the first of their foreign
keys is added.  A schema that a document has added to a model is therefore added
again by its own description: its tables are built without their references, and
these are added in the order in which the schema lists them.
-/

namespace GovernedCatalog

def Schema.document (s : Schema) : SchemaDocument where
  name := some s.name
  comment := s.comment
  annotations := s.annotations
  acls := s.acls
  tables := s.tables.mapValues fun _ t => t.document

theorem Table.document_unlinked (t : Table) :
    t.unlinked.document = { t.document with foreignKeys := [] } := by
  have hkeys : t.unlinked.keys.values.map UniqueKey.document =
      t.keys.values.map UniqueKey.document := by
    unfold unlinked SortedMap.values SortedMap.mapValues
    rw [List.map_map, List.map_map, List.map_map]
    rfl
  unfold document
  rw [hkeys]
  rfl

theorem Table.build_document_unlinked (t : Table) (schema : String)
    (settings : Settings) :
    t.unlinked.document.build schema settings =
      t.document.build schema settings := by
  rw [document_unlinked]
  rfl

/-! ## Adding tables -/

/-- The document of a table that is listed under a name. -/
def TableDocument.named (entry : String × TableDocument) : TableDocument :=
  { entry.2 with name := some (entry.2.name.getD entry.1) }

/-- The schema with more tables. -/
def Schema.withTables (s : Schema) (tables : List Table) : Schema :=
  { s with
    tables := (tables.map fun t => (t.name, t)).foldl
      (fun found e => found.insert e.1 e.2) s.tables }

/-- The foreign keys of documents with the paths of the tables built of them. -/
def foreignKeysOf (docs : List (String × TableDocument)) (tables : List Table) :
    List (TablePath × ForeignKeyDocument) :=
  (docs.zip tables).flatMap fun (entry, t) =>
    entry.2.foreignKeys.map (t.path, ·)

/-- Tables with names of their own among others: the first takes its name, and
the rest have names of their own beside it. -/
theorem Table.new_cons_iff (others : SortedMap String Table) (t : Table)
    (rest : List Table) :
    ((t :: rest).map name).Nodup ∧
        (∀ t' ∈ t :: rest, others.get? t'.name = none) ↔
      others.get? t.name = none ∧ (rest.map name).Nodup ∧
        ∀ t' ∈ rest, (others.insert t.name t).get? t'.name = none := by
  have hbeside : (∀ t' ∈ rest, (others.insert t.name t).get? t'.name = none) ↔
      t.name ∉ rest.map name ∧ ∀ t' ∈ rest, others.get? t'.name = none := by
    rw [List.mem_map, not_exists, ← forall_and]
    refine forall_congr' fun t' => ?_
    rw [SortedMap.get?_insert]
    by_cases hname : t'.name = t.name
    · simp only [hname, if_pos, reduceCtorEq]
      tauto
    · simp [hname]
  rw [hbeside, List.map_cons, List.nodup_cons, List.forall_mem_cons]
  tauto

namespace Model

variable {m : Model} {name : String} {s : Schema}

theorem addTable_eq_ok_iff (hs : m.schemas.get? name = some s) {t : Table}
    {m' : Model} :
    m.addTable name t = .ok m' ↔
      s.tables.get? t.name = none ∧
        m' = m.updateSchema name fun _ =>
          { s with tables := s.tables.insert t.name t } := by
  constructor
  · intro h
    obtain ⟨s', hs', hnone, rfl⟩ := addTable_eq_ok h
    rw [hs] at hs'
    cases hs'
    exact ⟨hnone, rfl⟩
  · rintro ⟨hnone, rfl⟩
    have hcontains : ¬s.tables.contains t.name = true := by
      simp [SortedMap.contains, hnone]
    refine bind_eq_ok.2 ⟨s, schema_eq_ok_iff.2 hs, bind_eq_ok.2 ⟨_, ?_, rfl⟩⟩
    exact if_neg hcontains

theorem schemas_setSchema (hs : m.schemas.get? name = some s) (s' : Schema)
    (name' : String) :
    (m.updateSchema name fun _ => s').schemas.get? name' =
      if name' = name then some s' else m.schemas.get? name' := by
  unfold updateSchema
  rw [SortedMap.get?_modify, hs]
  rfl

theorem setSchema_self (hs : m.schemas.get? name = some s) :
    (m.updateSchema name fun _ => s) = m := by
  refine Model.ext (SortedMap.ext_get? fun name' => ?_) rfl rfl rfl
  rw [schemas_setSchema hs]
  by_cases hname : name' = name
  · rw [if_pos hname, hname, hs]
  · rw [if_neg hname]

theorem setSchema_setSchema (hs : m.schemas.get? name = some s)
    (s₁ s₂ : Schema) :
    ((m.updateSchema name fun _ => s₁).updateSchema name fun _ => s₂) =
      m.updateSchema name fun _ => s₂ := by
  have hs₁ := (schemas_setSchema hs s₁ name).trans (if_pos rfl)
  refine Model.ext (SortedMap.ext_get? fun name' => ?_) rfl rfl rfl
  rw [schemas_setSchema hs₁, schemas_setSchema hs, schemas_setSchema hs]
  by_cases hname : name' = name
  · rw [if_pos hname, if_pos hname]
  · rw [if_neg hname, if_neg hname, if_neg hname]

theorem applyBareTable_eq_ok (hs : m.schemas.get? name = some s)
    {doc : TableDocument} {settings : Settings} {result : Model × TablePath} :
    m.applyBareTable name doc settings = .ok result ↔
      ∃ t, doc.build name settings = .ok t ∧ s.tables.get? t.name = none ∧
        result = (m.updateSchema name fun _ =>
          { s with tables := s.tables.insert t.name t }, t.path) := by
  unfold applyBareTable
  simp only [bind_eq_ok, addTable_eq_ok_iff hs]
  constructor
  · rintro ⟨t, ht, extended, ⟨hnone, rfl⟩, hresult⟩
    cases hresult
    exact ⟨t, ht, hnone, rfl⟩
  · rintro ⟨t, ht, hnone, rfl⟩
    exact ⟨t, ht, _, ⟨hnone, rfl⟩, rfl⟩

theorem applyBareTables_eq_ok (hs : m.schemas.get? name = some s)
    {settings : Settings} {docs : List (String × TableDocument)}
    {result : Model × List (TablePath × ForeignKeyDocument)} :
    m.applyBareTables name settings docs = .ok result ↔
      ∃ tables, (docs.mapM fun entry =>
          (TableDocument.named entry).build name settings) = .ok tables ∧
        (tables.map Table.name).Nodup ∧
        (∀ t ∈ tables, s.tables.get? t.name = none) ∧
        result = (m.updateSchema name fun _ => s.withTables tables,
          foreignKeysOf docs tables) := by
  induction docs generalizing m s result with
  | nil =>
    have hself : (m.updateSchema name fun _ => s.withTables []) = m :=
      setSchema_self hs
    constructor
    · intro h
      cases h
      exact ⟨[], rfl, .nil, List.forall_mem_nil _, by rw [hself]; rfl⟩
    · rintro ⟨tables, hbuilt, -, -, rfl⟩
      rw [List.mapM_nil] at hbuilt
      cases hbuilt
      rw [hself]
      rfl
  | cons entry rest ih =>
    have hs₁ (t : Table) := (schemas_setSchema hs
      { s with tables := s.tables.insert t.name t } name).trans (if_pos rfl)
    constructor
    · intro h
      obtain ⟨⟨extended, path⟩, hbare, h⟩ := bind_eq_ok.1 h
      obtain ⟨⟨complete, later⟩, hrest, h⟩ := bind_eq_ok.1 h
      cases h
      obtain ⟨t, ht, hnone, heq⟩ := (applyBareTable_eq_ok hs).1 hbare
      cases heq
      obtain ⟨tables, hbuilt, hnodup, hnew, heq⟩ := (ih (hs₁ t)).1 hrest
      cases heq
      obtain ⟨hnodup, hnew⟩ :=
        (Table.new_cons_iff s.tables t tables).2 ⟨hnone, hnodup, hnew⟩
      refine ⟨t :: tables, ?_, hnodup, hnew, ?_⟩
      · rw [List.mapM_cons]
        exact bind_eq_ok.2 ⟨t, ht, bind_eq_ok.2 ⟨tables, hbuilt, rfl⟩⟩
      · rw [setSchema_setSchema hs]
        rfl
    · rintro ⟨tables, hbuilt, hnodup, hnew, rfl⟩
      rw [List.mapM_cons] at hbuilt
      obtain ⟨t, ht, hbuilt⟩ := bind_eq_ok.1 hbuilt
      obtain ⟨others, hothers, hbuilt⟩ := bind_eq_ok.1 hbuilt
      cases hbuilt
      obtain ⟨hnone, hnodup, hnew⟩ :=
        (Table.new_cons_iff s.tables t others).1 ⟨hnodup, hnew⟩
      have hbare := (applyBareTable_eq_ok hs).2 ⟨t, ht, hnone, rfl⟩
      have hrest := (ih (hs₁ t)).2 ⟨others, hothers, hnodup, hnew, rfl⟩
      refine bind_eq_ok.2 ⟨_, hbare, bind_eq_ok.2 ⟨_, hrest, ?_⟩⟩
      rw [setSchema_setSchema hs]
      rfl

end Model

/-! ## Adding a schema -/

/-- The described schema without tables. -/
def SchemaDocument.bare (doc : SchemaDocument) (name : String) : Schema :=
  { Schema.fresh name with
    comment := doc.comment
    annotations := doc.annotations
    acls := doc.acls }

/-- The schema of a model that was added with its tables, before the first of
their foreign keys. -/
structure SchemaDocument.Adds (doc : SchemaDocument) (settings : Settings)
    (m : Model) (name : String) (tables : List Table) (added : Model) :
    Prop where
  name_eq : doc.name = some name
  shortName : checkName "Schema" name = .ok ()
  validAcls : doc.acls.validate .schema = .ok ()
  notReserved : name ≠ m.systemSchema.name
  new : m.schemas.get? name = none
  built : (doc.tables.entries.mapM fun entry =>
    (TableDocument.named entry).build name settings) = .ok tables
  names : (tables.map Table.name).Nodup
  added_eq : added = { m with
    schemas := m.schemas.insert name ((doc.bare name).withTables tables) }

namespace Model

variable {m m' : Model} {doc : SchemaDocument} {settings : Settings}

theorem setSchema_insert (m : Model) (name : String) (s₁ s₂ : Schema) :
    ({ m with schemas := m.schemas.insert name s₁ } : Model).updateSchema name
        (fun _ => s₂) = { m with schemas := m.schemas.insert name s₂ } := by
  refine Model.ext (SortedMap.ext_get? fun name' => ?_) rfl rfl rfl
  rw [schemas_setSchema ((SortedMap.get?_insert ..).trans (if_pos rfl)),
    SortedMap.get?_insert, SortedMap.get?_insert]
  by_cases hname : name' = name
  · rw [if_pos hname, if_pos hname]
  · rw [if_neg hname, if_neg hname, if_neg hname]

theorem addSchema_bare (doc : SchemaDocument) (name : String) :
    m.addSchema (doc.bare name) = .ok m' ↔
      name ≠ m.systemSchema.name ∧ m.schemas.get? name = none ∧
        m' = { m with schemas := m.schemas.insert name (doc.bare name) } := by
  unfold addSchema SortedMap.contains
  change (if name = m.systemSchema.name then _ else
    if (m.schemas.get? name).isSome = true then _ else _) = _ ↔ _
  by_cases hsystem : name = m.systemSchema.name
  · simp [hsystem]
  · cases m.schemas.get? name <;> simp [hsystem, eq_comm, SchemaDocument.bare, Schema.fresh]

theorem applySchema_eq_ok :
    m.applySchema doc settings = .ok m' ↔
      ∃ name tables added, doc.Adds settings m name tables added ∧
        (foreignKeysOf doc.tables.entries tables).foldlM
          (fun m (path, fk) => m.applyForeignKey path fk) added = .ok m' := by
  unfold applySchema
  simp only [bind_eq_ok, requireField_eq_ok]
  constructor
  · rintro ⟨name, hname, ⟨⟩, hshort, ⟨⟩, hacls, empty, hempty, ⟨added, fks⟩,
      hbare, hfold⟩
    obtain ⟨hreserved, hnew, rfl⟩ := (addSchema_bare doc name).1 hempty
    obtain ⟨tables, hbuilt, hnames, -, heq⟩ := (applyBareTables_eq_ok
      ((SortedMap.get?_insert ..).trans (if_pos rfl))).1 hbare
    cases heq
    rw [setSchema_insert] at hfold
    exact ⟨name, tables, _, ⟨hname, hshort, hacls, hreserved, hnew, hbuilt,
      hnames, rfl⟩, hfold⟩
  · rintro ⟨name, tables, added, hadds, hfold⟩
    have hempty := (addSchema_bare (m := m) doc name).2
      ⟨hadds.notReserved, hadds.new, rfl⟩
    refine ⟨name, hadds.name_eq, ⟨⟩, hadds.shortName, ⟨⟩, hadds.validAcls, _,
      hempty, (added, foreignKeysOf doc.tables.entries tables), ?_, hfold⟩
    refine (applyBareTables_eq_ok
      ((SortedMap.get?_insert ..).trans (if_pos rfl))).2
        ⟨tables, hadds.built, hadds.names, fun t _ => rfl, ?_⟩
    rw [setSchema_insert, hadds.added_eq]

end Model

namespace SchemaDocument.Adds

variable {doc : SchemaDocument} {settings : Settings} {m added : Model}
  {name : String} {tables : List Table}

theorem schema (h : doc.Adds settings m name tables added) :
    added.schemas.get? name = some ((doc.bare name).withTables tables) := by
  rw [h.added_eq]
  exact (SortedMap.get?_insert ..).trans (if_pos rfl)

theorem built_of_mem (h : doc.Adds settings m name tables added) {t : Table}
    (ht : t ∈ tables) :
    t.Unlinked ⟨name, t.name⟩ ∧ t.document.build name settings = .ok t := by
  obtain ⟨entry, -, hbuild⟩ := (mem_mapM_iff h.built).1 ht
  exact ⟨TableDocument.build_ensures _ name settings t hbuild,
    TableDocument.build_document hbuild⟩

end SchemaDocument.Adds

theorem Schema.get?_withTables {s : Schema} {tables : List Table} {name : String}
    {t : Table} (ht : (s.withTables tables).tables.get? name = some t) :
    (t ∈ tables ∧ t.name = name) ∨ s.tables.get? name = some t := by
  obtain hold | hmem :=
    SortedMap.mem_of_mem_foldl_insert (SortedMap.get?_eq_some_iff.1 ht)
  · exact .inr (SortedMap.get?_eq_some_iff.2 hold)
  · obtain ⟨t', ht', heq⟩ := List.mem_map.1 hmem
    cases heq
    exact .inl ⟨ht', rfl⟩

/-- A schema whose tables are listed under their own names is filled again with
its tables. -/
theorem Schema.withTables_values {s empty : Schema} (hempty : empty.tables = ∅)
    (hnames : ∀ e ∈ s.tables.entries, e.2.name = e.1) :
    (empty.withTables s.tables.values).tables = s.tables := by
  have hentries : (s.tables.values.map fun t => (t.name, t)) =
      s.tables.entries := by
    refine (List.map_map ..).trans ((List.map_congr_left ?_).trans (List.map_id _))
    exact fun e he => congrArg (·, e.2) (hnames e he)
  unfold withTables
  rw [hentries, hempty]
  exact s.tables.ofList_entries

theorem Schema.values_unlinked (s : Schema) :
    s.unlinked.tables.values = s.tables.values.map Table.unlinked := by
  unfold unlinked SortedMap.mapValues SortedMap.values
  rw [List.map_map, List.map_map]
  rfl

namespace SchemaDocument.Adds

variable {doc : SchemaDocument} {settings : Settings} {m added : Model}
  {name : String} {tables : List Table}

theorem mem_of_table (h : doc.Adds settings m name tables added)
    {path : TablePath} {t : Table} (hpath : path.schema = name)
    (ht : added.table? path = some t) : t ∈ tables ∧ path = ⟨name, t.name⟩ := by
  subst hpath
  obtain ⟨s, hs, hget⟩ := Model.table?_eq_some_iff.1 ht
  rw [h.schema, Option.some.injEq] at hs
  subst hs
  obtain ⟨hmem, hname⟩ | hold := Schema.get?_withTables hget
  · exact ⟨hmem, by rw [hname]⟩
  · cases hold

theorem built_of_table (h : doc.Adds settings m name tables added)
    {path : TablePath} {t : Table} (hpath : path.schema = name)
    (ht : added.table? path = some t) :
    t.Unlinked path ∧ t.document.build name settings = .ok t := by
  obtain ⟨hmem, rfl⟩ := h.mem_of_table hpath ht
  exact h.built_of_mem hmem

theorem no_reference (h : doc.Adds settings m name tables added)
    {id : ReferenceId} (hid : id.source.schema = name) :
    added.reference? id = none := by
  unfold Model.reference?
  cases ht : added.table? id.source with
  | none => rfl
  | some t => exact (h.built_of_table hid ht).1.no_reference id.mapping

theorem closed (h : doc.Adds settings m name tables added) (hm : m.Closed) :
    added.Closed := by
  have hempty := (Model.addSchema_bare (m := m) doc name).2
    ⟨h.notReserved, h.new, rfl⟩
  have hbare := (Model.applyBareTables_eq_ok
    (m := { m with schemas := m.schemas.insert name (doc.bare name) })
    ((SortedMap.get?_insert ..).trans (if_pos rfl))).2
      ⟨tables, h.built, h.names, fun t _ => rfl, rfl⟩
  rw [Model.setSchema_insert, ← h.added_eq] at hbare
  exact Model.closed_extends.applyBareTables
    (hm.addSchema (Model.alone_closed rfl) hempty) settings name
    doc.tables.entries _ hbare

theorem sources (h : doc.Adds settings m name tables added) :
    ∀ e ∈ foreignKeysOf doc.tables.entries tables, e.1.schema = name := by
  intro e he
  obtain ⟨⟨entry, t⟩, hpair, he⟩ := List.mem_flatMap.1 he
  obtain ⟨fk, -, rfl⟩ := List.mem_map.1 he
  have hbuilt := (h.built_of_mem (List.of_mem_zip hpair).2).1
  exact congrArg TablePath.schema hbuilt.path_eq

theorem linked (h : doc.Adds settings m name tables added) {m' : Model}
    (hfold : (foreignKeysOf doc.tables.entries tables).foldlM
      (fun m (path, fk) => m.applyForeignKey path fk) added = .ok m') :
    added.LinkedWithin name m' :=
  Model.foldlM_applyForeignKey (fun _ hid => h.no_reference hid) h.sources m' hfold

/-- Nothing has been linked to the tables yet. -/
theorem unlinked_bare (h : doc.Adds settings m name tables added) :
    ((doc.bare name).withTables tables).unlinked =
      (doc.bare name).withTables tables := by
  refine Schema.ext rfl rfl (SortedMap.ext_get? fun table => ?_) rfl rfl
  refine (SortedMap.get?_mapValues ..).trans ?_
  cases hget : ((doc.bare name).withTables tables).tables.get? table with
  | none => rfl
  | some t =>
    have ht : added.table? ⟨name, table⟩ = some t :=
      Model.table?_eq_some_iff.2 ⟨_, h.schema, hget⟩
    exact congrArg some (h.built_of_table rfl ht).1.unlinked_eq

end SchemaDocument.Adds

/-- The schema that was added has been linked since, and is described. -/
theorem SchemaDocument.Adds.document {doc : SchemaDocument}
    {settings : Settings} {m added m' : Model} {name : String}
    {tables : List Table} (h : doc.Adds settings m name tables added)
    (hunlinked : m'.unlinked = added.unlinked) :
    ∃ s, m'.schemas.get? name = some s ∧ s.emptied = doc.bare name ∧
      (∀ e ∈ s.tables.entries,
        added.table? ⟨name, e.1⟩ = some e.2.unlinked) ∧
      s.document.Adds settings m name (s.tables.values.map Table.unlinked)
        added := by
  have hschema : (m'.schemas.get? name).map Schema.unlinked =
      some ((doc.bare name).withTables tables) := by
    have hget := congrArg (fun n : Model => n.schemas.get? name) hunlinked
    simp only [Model.unlinked, SortedMap.get?_mapValues, h.schema] at hget
    rw [hget, Option.map_some, h.unlinked_bare]
  obtain ⟨s, hs, hsame⟩ := Option.map_eq_some_iff.1 hschema
  obtain ⟨hname, hcomment, htables, hannotations, hacls⟩ := Schema.ext_iff.1 hsame
  have htable : ∀ e ∈ s.tables.entries,
      added.table? ⟨name, e.1⟩ = some e.2.unlinked := by
    intro e he
    refine Model.table?_eq_some_iff.2 ⟨_, h.schema, ?_⟩
    rw [← htables]
    refine (SortedMap.get?_mapValues ..).trans ?_
    rw [SortedMap.get?_eq_some_iff.2 he]
    rfl
  have hbuilt : ∀ e ∈ s.tables.entries, e.2.unlinked.Unlinked ⟨name, e.1⟩ ∧
      e.2.document.build name settings = .ok e.2.unlinked := by
    intro e he
    have hbuilt := h.built_of_table rfl (htable e he)
    rw [Table.build_document_unlinked] at hbuilt
    exact hbuilt
  have hnames : ∀ e ∈ s.tables.entries, e.2.name = e.1 := fun e he =>
    congrArg TablePath.table (hbuilt e he).1.path_eq
  have hemptied : s.emptied = doc.bare name :=
    Schema.ext hname hcomment rfl hannotations hacls
  refine ⟨s, hs, hemptied, htable, congrArg some hname, h.shortName, ?_,
    h.notReserved, h.new, ?_, ?_, ?_⟩
  · exact (congrArg (Acls.validate · .schema) hacls).trans h.validAcls
  · have hentries : s.document.tables.entries =
        s.tables.entries.map fun e => (e.1, e.2.document) := rfl
    rw [hentries, List.mapM_map, SortedMap.values, List.map_map]
    exact mapM_eq_ok_map fun e he => (hbuilt e he).2
  · rw [List.map_map]
    exact SortedMap.nodup_map id fun hget =>
      hnames _ (SortedMap.get?_eq_some_iff.1 hget)
  · have hfill : (s.document.bare name).withTables
        (s.tables.values.map Table.unlinked) =
          (doc.bare name).withTables tables := by
      refine Schema.ext rfl hcomment ?_ hannotations hacls
      rw [← htables, ← Schema.values_unlinked]
      refine Schema.withTables_values rfl fun e he => ?_
      obtain ⟨e, hmem, rfl⟩ := List.mem_map.1 he
      exact hnames e hmem
    rw [hfill]
    exact h.added_eq

/-! ## Adding the references again -/

def Schema.references (s : Schema) : List Reference :=
  s.tables.values.flatMap Table.references

namespace Model.Closed

variable {m : Model} {name : String} {s : Schema}

theorem table_of_entry (hm : m.Closed) (hs : m.schemas.get? name = some s)
    {e : String × Table} (he : e ∈ s.tables.entries) :
    m.table? ⟨name, e.1⟩ = some e.2 ∧ e.2.WellFormed ⟨name, e.1⟩ := by
  have ht : m.table? ⟨name, e.1⟩ = some e.2 :=
    table?_eq_some_iff.2 ⟨s, hs, SortedMap.get?_eq_some_iff.2 he⟩
  exact ⟨ht, hm.table ht⟩

theorem mem_schema_references (hm : m.Closed)
    (hs : m.schemas.get? name = some s) {r : Reference} :
    r ∈ s.references ↔ r.source.schema = name ∧ m.reference? r.id = some r := by
  constructor
  · intro hr
    obtain ⟨t, ht, hr⟩ := List.mem_flatMap.1 hr
    obtain ⟨e, he, rfl⟩ := List.mem_map.1 ht
    obtain ⟨ht, hwell⟩ := hm.table_of_entry hs he
    have hget := hwell.mem_references.1 hr
    have hsource := (hwell.reference hget).1
    refine ⟨congrArg TablePath.schema hsource, reference?_eq_some_iff.2
      ⟨e.2, ?_, hget⟩⟩
    rw [Reference.id, hsource]
    exact ht
  · rintro ⟨rfl, hget⟩
    obtain ⟨t, ht, hget⟩ := reference?_eq_some_iff.1 hget
    obtain ⟨s', hs', htable⟩ := table?_eq_some_iff.1 ht
    have heq : s' = s := Option.some.inj (hs'.symm.trans hs)
    subst heq
    exact List.mem_flatMap.2 ⟨t, SortedMap.mem_values_iff.2 ⟨_, htable⟩,
      (hm.table ht).mem_references.2 hget⟩

theorem nodup_schema_references (hm : m.Closed)
    (hs : m.schemas.get? name = some s) :
    (s.references.map Reference.id).Nodup := by
  unfold Schema.references
  rw [List.map_flatMap]
  refine SortedMap.nodup_flatMap (fun id : ReferenceId => id.source.table)
    (fun {table t} hget id hid => ?_) fun {table t} hget => ?_
  · obtain ⟨_, hwell⟩ :=
      hm.table_of_entry hs (SortedMap.get?_eq_some_iff.1 hget)
    exact congrArg TablePath.table (hwell.mem_reference_ids.1 hid).1
  · obtain ⟨_, hwell⟩ :=
      hm.table_of_entry hs (SortedMap.get?_eq_some_iff.1 hget)
    exact hwell.nodup_references

/-- The foreign keys in the description of a schema are its references. -/
theorem foreignKeysOf_document (hm : m.Closed)
    (hs : m.schemas.get? name = some s) :
    foreignKeysOf s.document.tables.entries (s.tables.values.map Table.unlinked) =
      s.references.map fun r => (r.source, r.document) := by
  unfold foreignKeysOf Schema.references SortedMap.values
  rw [List.map_flatMap, List.flatMap_map, List.map_map]
  change ((s.tables.entries.map fun e => (e.1, e.2.document)).zip
    (s.tables.entries.map fun e => e.2.unlinked)).flatMap _ = _
  rw [List.zip_map', List.flatMap_map]
  refine List.flatMap_congr fun e he => ?_
  obtain ⟨_, hwell⟩ := hm.table_of_entry hs he
  refine (List.map_map ..).trans (List.map_congr_left fun r hr => ?_)
  have hsource := (hwell.reference (hwell.mem_references.1 hr)).1
  exact congrArg (·, r.document) (hwell.path_eq.trans hsource.symm)

end Model.Closed

/-- A schema that a document has added to a closed model is added again by its
description. -/
theorem Model.Closed.applySchema_document {m m' : Model} {doc : SchemaDocument}
    {settings : Settings} (hm : m.Closed)
    (h : m.applySchema doc settings = .ok m') :
    ∃ s, doc.name = some s.name ∧ m'.schemas.get? s.name = some s ∧
      m.applySchema s.document settings = .ok m' := by
  have hm' : m'.Closed := hm.applySchema doc settings m' h
  obtain ⟨name, tables, added, hadds, hfold⟩ := applySchema_eq_ok.1 h
  have hlinked := hadds.linked hfold
  obtain ⟨s, hs, hemptied, -, hdocument⟩ := hadds.document hlinked.unlinked_eq
  obtain rfl : s.name = name := congrArg Schema.name hemptied
  refine ⟨s, hadds.name_eq, hs, ?_⟩
  have hreference : ∀ r ∈ s.references,
      r.source.schema = s.name ∧ m'.reference? r.id = some r :=
    fun r hr => (hm'.mem_schema_references hs).1 hr
  obtain ⟨m'', hfold', hunlinked, hthere, hothers⟩ :=
    foldlM_applyForeignKey_document (m := added) (hm'.nodup_schema_references hs)
      (fun r hr => hadds.no_reference (hreference r hr).1)
      (fun r hr => hlinked.accepted r.id r (hreference r hr).1 (hreference r hr).2)
      (fun r hr => (hm'.hasEnds (hreference r hr).2).of_unlinked
        hlinked.unlinked_eq)
  have happly : m.applySchema s.document settings = .ok m'' := by
    refine applySchema_eq_ok.2 ⟨s.name, _, added, hdocument, ?_⟩
    rw [hm'.foreignKeysOf_document hs]
    exact hfold'
  have hm'' : m''.Closed := hm.applySchema s.document settings m'' happly
  have hsame : m'' = m' := by
    refine hm''.eq_of_unlinked hm' (hunlinked.trans hlinked.unlinked_eq.symm)
      fun id => ?_
    by_cases hid : id ∈ s.references.map Reference.id
    · obtain ⟨r, hr, rfl⟩ := List.mem_map.1 hid
      rw [hthere r hr, (hreference r hr).2]
    rw [hothers id hid]
    by_cases hschema : id.source.schema = s.name
    · rw [hadds.no_reference hschema]
      cases hget : m'.reference? id with
      | none => rfl
      | some r =>
        have hsource := hm'.named.reference hget
        have heq := hm'.named.reference_id hget
        refine absurd ?_ hid
        refine List.mem_map.2 ⟨r, (hm'.mem_schema_references hs).2 ⟨?_, ?_⟩, heq⟩
        · rw [hsource.1, hschema]
        · rw [heq, hget]
    · exact (hlinked.others id hschema).symm
  rw [happly, hsame]

/-- Adding a schema leaves the name of the system schema to it alone. -/
theorem Model.applySchema_apart {m m' : Model} {doc : SchemaDocument}
    {settings : Settings} (hapart : m.schemas.get? m.systemSchema.name = none)
    (h : m.applySchema doc settings = .ok m') :
    m'.schemas.get? m'.systemSchema.name = none := by
  obtain ⟨name, tables, added, hadds, hfold⟩ := applySchema_eq_ok.1 h
  have hlinked := hadds.linked hfold
  have hsystem : m'.systemSchema = m.systemSchema := by
    have hsame := congrArg Model.systemSchema hlinked.unlinked_eq
    rw [hadds.added_eq] at hsame
    exact hsame
  have hadded : added.schemas.get? m.systemSchema.name = none := by
    rw [hadds.added_eq]
    exact (SortedMap.get?_insert ..).trans
      ((if_neg hadds.notReserved.symm).trans hapart)
  have hemptied := emptied_unlinked m' m'.systemSchema.name
  rw [hlinked.unlinked_eq, emptied_unlinked, hsystem, hadded] at hemptied
  rw [hsystem]
  exact Option.map_eq_none_iff.1 hemptied.symm

end GovernedCatalog
