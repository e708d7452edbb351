import GovernedCatalog.Proofs.Document.Reading

/-!
# Values of a described schema

The values that clients attach to a schema and to what it owns are taken from
its document as they are.  If the document has them in canonical form, as all
documents that have been read, so has the schema.
-/

namespace GovernedCatalog

open Json

theorem Annotations.isCanonical_iff {annotations : Annotations} :
    Annotations.IsCanonical annotations ↔
      ∀ uri j, annotations.get? uri = some j → j.IsCanonical := by
  unfold IsCanonical
  simp only [SortedMap.mem_values_iff]
  exact ⟨fun h uri j hj => h j ⟨uri, hj⟩, fun h j ⟨uri, hj⟩ => h uri j hj⟩

theorem Annotations.IsCanonical.overlay {annotations overrides : Annotations}
    (h : Annotations.IsCanonical annotations)
    (h' : Annotations.IsCanonical overrides) :
    Annotations.IsCanonical (annotations.overlay overrides) := by
  rw [isCanonical_iff] at h h' ⊢
  intro uri j hj
  rw [SortedMap.get?_overlay] at hj
  rcases Option.or_eq_some_iff.1 hj with hj | ⟨_, hj⟩
  · exact h' uri j hj
  · exact h uri j hj

/-! ## Canonical documents -/

structure ColumnDocument.IsCanonical (doc : ColumnDocument) : Prop where
  default : ∀ j, doc.default = some j → j.IsCanonical
  annotations : Annotations.IsCanonical doc.annotations
  bindings : Bindings.IsCanonical doc.bindings

structure KeyDocument.IsCanonical (doc : KeyDocument) : Prop where
  annotations : Annotations.IsCanonical doc.annotations

structure ForeignKeyDocument.IsCanonical (doc : ForeignKeyDocument) : Prop where
  annotations : Annotations.IsCanonical doc.annotations
  bindings : Bindings.IsCanonical doc.bindings

structure TableDocument.IsCanonical (doc : TableDocument) : Prop where
  columns : ∀ c ∈ doc.columns, c.IsCanonical
  keys : ∀ key ∈ doc.keys, key.IsCanonical
  foreignKeys : ∀ fk ∈ doc.foreignKeys, fk.IsCanonical
  annotations : Annotations.IsCanonical doc.annotations
  bindings : Bindings.IsCanonical doc.bindings

structure SchemaDocument.IsCanonical (doc : SchemaDocument) : Prop where
  annotations : Annotations.IsCanonical doc.annotations
  tables : ∀ t ∈ doc.tables.values, t.IsCanonical

theorem Json.Fields.annotations_isCanonical {fields : Fields}
    {annotations : Annotations} (h : fields.annotations = some annotations) :
    Annotations.IsCanonical annotations :=
  Annotations.readsOnly.withDefault (fun _ hj => absurd hj List.not_mem_nil) h

theorem Json.Fields.bindings_isCanonical {fields : Fields} {bindings : Bindings}
    (h : fields.bindings = some bindings) : Bindings.IsCanonical bindings :=
  Bindings.readsOnly.withDefault (fun _ hb => absurd hb List.not_mem_nil) h

theorem ColumnDocument.readsOnly : ReadsOnly ofJson? IsCanonical := by
  intro j doc h
  simp only [ofJson?, Option.bind_eq_bind, Option.bind_eq_some_iff,
    Option.pure_def, Option.some.injEq] at h
  obtain ⟨fields, -, name, -, type, -, default, hdefault, nullable, -,
    comment, -, annotations, hannotations, acls, -, bindings, hbindings, rfl⟩ := h
  exact ⟨readsOnly_asAny.optional hdefault,
    Fields.annotations_isCanonical hannotations,
    Fields.bindings_isCanonical hbindings⟩

theorem KeyDocument.readsOnly : ReadsOnly ofJson? IsCanonical := by
  intro j doc h
  simp only [ofJson?, Option.bind_eq_bind, Option.bind_eq_some_iff,
    Option.pure_def, Option.some.injEq] at h
  obtain ⟨fields, -, columns, -, constraints, -, comment, -, annotations,
    hannotations, rfl⟩ := h
  exact ⟨Fields.annotations_isCanonical hannotations⟩

theorem ForeignKeyDocument.readsOnly : ReadsOnly ofJson? IsCanonical := by
  intro j doc h
  simp only [ofJson?, Option.bind_eq_bind, Option.bind_eq_some_iff,
    Option.pure_def, Option.some.injEq] at h
  obtain ⟨fields, -, sources, -, targets, -, constraints, -, onDelete, -,
    onUpdate, -, comment, -, annotations, hannotations, acls, -, bindings,
    hbindings, rfl⟩ := h
  exact ⟨Fields.annotations_isCanonical hannotations,
    Fields.bindings_isCanonical hbindings⟩

theorem TableDocument.readsOnly : ReadsOnly ofJson? IsCanonical := by
  intro j doc h
  simp only [ofJson?, Option.bind_eq_bind, Option.bind_eq_some_iff,
    Option.pure_def, Option.some.injEq] at h
  obtain ⟨fields, -, name, -, schema, -, kind, -, comment, -, columns, hcolumns,
    keys, hkeys, foreignKeys, hforeignKeys, annotations, hannotations, acls, -,
    bindings, hbindings, rfl⟩ := h
  exact {
    columns := ColumnDocument.readsOnly.asList.withDefault
      (fun _ hc => absurd hc List.not_mem_nil) hcolumns
    keys := KeyDocument.readsOnly.asList.withDefault
      (fun _ hkey => absurd hkey List.not_mem_nil) hkeys
    foreignKeys := ForeignKeyDocument.readsOnly.asList.withDefault
      (fun _ hfk => absurd hfk List.not_mem_nil) hforeignKeys
    annotations := Fields.annotations_isCanonical hannotations
    bindings := Fields.bindings_isCanonical hbindings }

/-- Documents that have been read are canonical. -/
theorem SchemaDocument.readsOnly : ReadsOnly ofJson? IsCanonical := by
  intro j doc h
  simp only [ofJson?, Option.bind_eq_bind, Option.bind_eq_some_iff,
    Option.pure_def, Option.some.injEq] at h
  obtain ⟨fields, -, name, -, comment, -, annotations, hannotations, acls, -,
    tables, htables, rfl⟩ := h
  exact ⟨Fields.annotations_isCanonical hannotations,
    TableDocument.readsOnly.asMap.withDefault
      (fun _ ht => absurd ht List.not_mem_nil) htables⟩

/-! ## Tables -/

/-- The values of a table and of its columns and keys are canonical. -/
structure Table.IsCanonical (t : Table) : Prop where
  columns : ∀ c ∈ t.columns, c.IsCanonical
  keys : ∀ columns key, t.key? columns = some key →
    Annotations.IsCanonical key.annotations
  annotations : Annotations.IsCanonical t.annotations
  bindings : Bindings.IsCanonical t.bindings

theorem ColumnDocument.Builds.isCanonical {doc : ColumnDocument}
    {path : TablePath} {position : Nat} {settings : Settings} {c : Column}
    (h : doc.Builds path position settings c) (hdoc : doc.IsCanonical) :
    c.IsCanonical where
  default := by
    intro j hj
    unfold Column.default? at hj
    rw [h.content] at hj
    obtain ⟨hdefault, hnull⟩ := Option.filter_eq_some_iff.1 hj
    exact ⟨hdoc.default j hdefault, by simpa using hnull⟩
  annotations := h.annotations ▸ hdoc.annotations
  bindings := h.bindings ▸ hdoc.bindings

theorem Table.IsCanonical.addColumn {doc : ColumnDocument}
    (hdoc : doc.IsCanonical) {t : Table} (ht : t.IsCanonical) (path : TablePath)
    (position : Nat) (settings : Settings) :
    Ensures (ColumnDocument.addTo path settings t (doc, position))
      Table.IsCanonical := by
  intro t' h
  obtain ⟨c, hc, hadd⟩ := bind_eq_ok.1 h
  have hcanonical := (ColumnDocument.builds_of_build hc).isCanonical hdoc
  obtain ⟨-, rfl⟩ := Table.addColumn_eq_ok hadd
  refine { ht with columns := fun d hd => ?_ }
  rcases List.mem_cons.1 ((Table.insertColumn_perm c t.columns).mem_iff.1 hd)
    with rfl | hd
  · exact hcanonical
  · exact ht.columns d hd

theorem Table.IsCanonical.addKey {doc : KeyDocument} (hdoc : doc.IsCanonical)
    {t : Table} (ht : t.IsCanonical) :
    Ensures (doc.addTo t) Table.IsCanonical := by
  intro t' h
  obtain ⟨names, -, -, -, rfl⟩ := KeyDocument.addTo_eq_ok.1 h
  refine { ht with keys := fun columns key hkey => ?_ }
  change Table.key? _ columns = some key at hkey
  rw [KeyDocument.key?_describe] at hkey
  by_cases hcolumns : columns = .ofList names
  · rw [if_pos hcolumns, Option.some.injEq] at hkey
    subst hkey
    refine Annotations.IsCanonical.overlay ?_ hdoc.annotations
    cases hold : t.key? (.ofList names) with
    | none => exact fun j hj => absurd hj List.not_mem_nil
    | some old => exact ht.keys _ old hold
  · rw [if_neg hcolumns] at hkey
    exact ht.keys columns key hkey

theorem TableDocument.IsCanonical.build {doc : TableDocument}
    (hdoc : doc.IsCanonical) (schema : String) (settings : Settings) :
    Ensures (doc.build schema settings) Table.IsCanonical := by
  intro t h
  obtain ⟨name, kind, -, h⟩ := TableDocument.build_eq_ok.1 h
  obtain ⟨⟨⟩, -, h⟩ := bind_eq_ok.1 h
  obtain ⟨⟨⟩, -, h⟩ := bind_eq_ok.1 h
  obtain ⟨withColumns, hcolumns, hkeys⟩ := bind_eq_ok.1 h
  have hbare : (doc.bare schema name kind).IsCanonical := by
    refine ⟨fun c hc => absurd hc List.not_mem_nil, fun columns key hkey => ?_,
      hdoc.annotations, hdoc.bindings⟩
    cases hkey
  have hwithColumns : withColumns.IsCanonical := by
    refine Ensures.foldlM (fun t₁ entry hentry ht₁ => ?_) hbare _ hcolumns
    have hcolumn := hdoc.columns entry.1 (List.fst_mem_of_mem_zipIdx hentry)
    exact ht₁.addColumn hcolumn _ _ _
  refine Ensures.foldlM (fun t₁ key hkey ht₁ => ?_) hwithColumns _ hkeys
  exact ht₁.addKey (hdoc.keys key hkey)

theorem Table.IsCanonical.of_unlinked {t : Table} (h : t.unlinked.IsCanonical) :
    t.IsCanonical where
  columns := h.columns
  keys := by
    intro columns key hkey
    have hunlinked : t.unlinked.key? columns =
        some { key with referencedBy := ∅ } := by
      rw [key?_unlinked, hkey]
      rfl
    have hkept := h.keys columns _ hunlinked
    exact hkept
  annotations := h.annotations
  bindings := h.bindings

/-! ## Schemas -/

structure Schema.IsCanonical (s : Schema) : Prop where
  annotations : Annotations.IsCanonical s.annotations
  tables : ∀ t ∈ s.tables.values, t.IsCanonical
  references : ∀ r ∈ s.references, r.IsCanonical

/-- References of a schema with canonical values. -/
theorem Model.foldlM_applyForeignKey_isCanonical {m : Model} {schema : String}
    (hnone : ∀ id, id.source.schema = schema → m.reference? id = none)
    {foreignKeys : List (TablePath × ForeignKeyDocument)}
    (hdocs : ∀ e ∈ foreignKeys, e.2.IsCanonical) :
    Ensures (foreignKeys.foldlM (fun m (path, fk) => m.applyForeignKey path fk) m)
      fun m' => ∀ id r, id.source.schema = schema →
        m'.reference? id = some r → r.IsCanonical := by
  refine .foldlM (fun m₁ e he hm₁ => ?_) fun id r hid hr => ?_
  · intro m₂ happly id r hid hr
    obtain ⟨mapping, -, hends, rfl⟩ := applyForeignKey_eq_ok.1 happly
    rw [hends.reference?_link] at hr
    by_cases hnew : id = ⟨e.1, mapping⟩
    · rw [if_pos hnew, Option.some.injEq] at hr
      subst hr
      exact ⟨(hdocs e he).annotations, (hdocs e he).bindings⟩
    · rw [if_neg hnew] at hr
      exact hm₁ id r hid hr
  · rw [hnone id hid] at hr
    cases hr

theorem SchemaDocument.IsCanonical.foreignKeysOf {doc : SchemaDocument}
    (hdoc : doc.IsCanonical) (tables : List Table) :
    ∀ e ∈ foreignKeysOf doc.tables.entries tables, e.2.IsCanonical := by
  intro e he
  obtain ⟨⟨entry, t⟩, hpair, he⟩ := List.mem_flatMap.1 he
  obtain ⟨fk, hfk, rfl⟩ := List.mem_map.1 he
  have htable : entry.2 ∈ doc.tables.values :=
    List.mem_map_of_mem (List.of_mem_zip hpair).1
  exact (hdoc.tables entry.2 htable).foreignKeys fk hfk

theorem SchemaDocument.Adds.isCanonical {doc : SchemaDocument}
    {settings : Settings} {m added : Model} {name : String}
    {tables : List Table} (h : doc.Adds settings m name tables added)
    (hdoc : doc.IsCanonical) : ∀ t ∈ tables, t.IsCanonical := by
  intro t ht
  obtain ⟨entry, hentry, hbuild⟩ := (mem_mapM_iff h.built).1 ht
  have hentryDoc := hdoc.tables entry.2 (List.mem_map_of_mem hentry)
  have hnamed : (TableDocument.named entry).IsCanonical := { hentryDoc with }
  exact hnamed.build name settings t hbuild

/-- A schema that a canonical document has added is canonical. -/
theorem Model.Closed.applySchema_isCanonical {m m' : Model}
    {doc : SchemaDocument} {settings : Settings} (hm : m.Closed)
    (hdoc : doc.IsCanonical) (h : m.applySchema doc settings = .ok m')
    {s : Schema} (hname : doc.name = some s.name)
    (hs : m'.schemas.get? s.name = some s) : s.IsCanonical := by
  have hm' : m'.Closed := hm.applySchema doc settings m' h
  obtain ⟨name, tables, added, hadds, hfold⟩ := applySchema_eq_ok.1 h
  obtain rfl : s.name = name := Option.some.inj (hname.symm.trans hadds.name_eq)
  have hnone : ∀ id, id.source.schema = s.name → added.reference? id = none :=
    fun _ hid => hadds.no_reference hid
  obtain ⟨s', hs', hemptied, htable, -⟩ := hadds.document (hadds.linked hfold).unlinked_eq
  have heq : s' = s := Option.some.inj (hs'.symm.trans hs)
  rw [heq] at hemptied htable
  refine ⟨?_, fun t ht => ?_, fun r hr => ?_⟩
  · have hannotations : s.annotations = doc.annotations :=
      congrArg Schema.annotations hemptied
    exact hannotations ▸ hdoc.annotations
  · obtain ⟨e, he, rfl⟩ := List.mem_map.1 ht
    have hmem := (hadds.mem_of_table rfl (htable e he)).1
    exact .of_unlinked (hadds.isCanonical hdoc _ hmem)
  · obtain ⟨hsource, hget⟩ := (hm'.mem_schema_references hs).1 hr
    exact foldlM_applyForeignKey_isCanonical hnone (hdoc.foreignKeysOf tables) m'
      hfold r.id r hsource hget

end GovernedCatalog
