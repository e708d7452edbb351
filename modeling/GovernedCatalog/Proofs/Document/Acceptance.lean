import GovernedCatalog.Proofs.Document.Rebuilding
import GovernedCatalog.Session.Edit

/-!
# Which descriptions of schemas are accepted

A described schema is accepted on conditions that know no order: each table can
be built by itself, no two of them have the same name, and the ends of every
foreign key are there once all tables are.  A foreign key that is added leaves the
columns and keys of all tables as they are, so that it neither provides nor takes
away the ends of another.
-/

namespace GovernedCatalog

/-! ## Well-formed descriptions of references -/

/-- The document describes the mapping for foreign keys of the table: as many
columns of the table as columns of the target are listed, and they are the pairs
of the mapping, so that no column of the table is listed twice. -/
structure ForeignKeyDocument.Describes (doc : ForeignKeyDocument)
    (source : TablePath) (mapping : ReferenceMap) : Prop
    extends doc.Accepted where
  columns : ∃ sources targets,
    doc.sources = some sources ∧ doc.targets = some targets ∧
      sources.length = targets.length ∧
      (∀ p ∈ sources, p.tablePath source = source) ∧
      (∀ p ∈ targets, p.tablePath source = mapping.target) ∧
      mapping.pairs.entries.Perm
        ((sources.map ColumnPointer.column).zip
          (targets.map ColumnPointer.column))

theorem any_ne_eq_false_iff {pointers : List ColumnPointer}
    {inside path : TablePath} :
    (pointers.any fun p => p.tablePath inside != path) = false ↔
      ∀ p ∈ pointers, p.tablePath inside = path := by
  simp only [List.any_eq_false, bne_iff_ne, ne_eq, not_not]

theorem zip_columns (sources targets : List ColumnPointer) :
    (sources.zip targets).map (fun (s, t) => (s.column, t.column)) =
      (sources.map ColumnPointer.column).zip
        (targets.map ColumnPointer.column) :=
  (List.zip_map ..).symm

section Mapping

variable {doc : ForeignKeyDocument} {source : TablePath} {mapping : ReferenceMap}

theorem ForeignKeyDocument.describes_of_mapping (h : doc.mapping source = .ok mapping) :
    doc.Describes source mapping := by
  have haccepted := doc.mapping_ensures source mapping h
  refine ⟨haccepted, ?_⟩
  unfold ForeignKeyDocument.mapping at h
  obtain ⟨sources, hsources, h⟩ := bind_eq_ok.1 h
  obtain ⟨targets, htargets, h⟩ := bind_eq_ok.1 h
  by_cases hlength : sources.length ≠ targets.length
  · rw [if_pos hlength] at h
    cases h
  rw [if_neg hlength] at h
  cases targets with
  | nil => cases h
  | cons first rest =>
    by_cases hscattered : ((first :: rest).any fun p =>
        p.tablePath source != first.tablePath source) = true
    · simp only [if_pos hscattered] at h
      cases h
    by_cases hforeign : (sources.any fun p =>
        p.tablePath source != source) = true
    · simp only [if_neg hscattered, if_pos hforeign] at h
      cases h
    simp only [if_neg hscattered, if_neg hforeign] at h
    obtain ⟨⟨⟩, -, h⟩ := bind_eq_ok.1 h
    obtain ⟨⟨⟩, -, h⟩ := bind_eq_ok.1 h
    obtain ⟨⟨⟩, -, h⟩ := bind_eq_ok.1 h
    rw [zip_columns] at h
    cases hpairs : ReferenceMap.ofPairs (first.tablePath source)
      ((sources.map ColumnPointer.column).zip
        ((first :: rest).map ColumnPointer.column)) with
    | error fault =>
      rw [hpairs] at h
      cases h
    | ok found =>
      rw [hpairs] at h
      cases h
      obtain ⟨htarget, hperm⟩ := ReferenceMap.lists_of_ofPairs hpairs
      refine ⟨sources, first :: rest, requireField_eq_ok.1 hsources,
        requireField_eq_ok.1 htargets, not_not.1 hlength,
        any_ne_eq_false_iff.1 (Bool.eq_false_iff.2 hforeign), ?_,
        hperm⟩
      rw [htarget]
      exact any_ne_eq_false_iff.1 (Bool.eq_false_iff.2 hscattered)

theorem ForeignKeyDocument.Describes.mapping_eq_ok (h : doc.Describes source mapping) :
    doc.mapping source = .ok mapping := by
  obtain ⟨haccepted, sources, targets, hsources, htargets, hlength, hown, hone, hperm⟩ := h
  unfold ForeignKeyDocument.mapping
  refine bind_eq_ok.2 ⟨sources, requireField_eq_ok.2 hsources, ?_⟩
  refine bind_eq_ok.2 ⟨targets, requireField_eq_ok.2 htargets, ?_⟩
  rw [if_neg (not_not.2 hlength)]
  cases targets with
  | nil =>
    rw [List.map_nil, List.zip_nil_right] at hperm
    exact absurd (List.perm_nil.1 hperm) mapping.nonempty
  | cons first rest =>
    have hfirst := hone first List.mem_cons_self
    simp only [hfirst, any_ne_eq_false_iff.2 hone, any_ne_eq_false_iff.2 hown]
    refine bind_eq_ok.2 ⟨⟨⟩, haccepted.shortNames, ?_⟩
    refine bind_eq_ok.2 ⟨⟨⟩, haccepted.validAcls, ?_⟩
    refine bind_eq_ok.2 ⟨⟨⟩, haccepted.validBindings, ?_⟩
    rw [zip_columns, ReferenceMap.ofPairs_eq_ok_iff.2 ⟨rfl, hperm⟩]
    rfl

theorem ForeignKeyDocument.mapping_eq_ok_iff :
    doc.mapping source = .ok mapping ↔ doc.Describes source mapping :=
  ⟨describes_of_mapping, Describes.mapping_eq_ok⟩

end Mapping

/-! ## Foreign keys -/

/-- The document describes a reference from the table, and both of its ends are
there. -/
def ForeignKeyDocument.Resolves (doc : ForeignKeyDocument) (m : Model)
    (source : TablePath) : Prop :=
  ∃ mapping, doc.Describes source mapping ∧ m.HasEnds ⟨source, mapping⟩

namespace Model

variable {m : Model}

theorem hasEnds_link_iff {linked id : ReferenceId} {doc : ForeignKeyDocument} :
    (m.link linked doc).HasEnds id ↔ m.HasEnds id :=
  ⟨fun h => h.of_unlinked (m.unlinked_link linked doc),
    fun h => h.of_unlinked (m.unlinked_link linked doc).symm⟩

theorem applyForeignKey_ok_iff {source : TablePath} {doc : ForeignKeyDocument} :
    (∃ m', m.applyForeignKey source doc = .ok m') ↔ doc.Resolves m source := by
  simp only [applyForeignKey_eq_ok, ForeignKeyDocument.mapping_eq_ok_iff]
  constructor
  · rintro ⟨_, mapping, hdescribes, hends, -⟩
    exact ⟨mapping, hdescribes, hends⟩
  · rintro ⟨mapping, hdescribes, hends⟩
    exact ⟨_, mapping, hdescribes, hends, rfl⟩

/-- Foreign keys are added one after the other exactly if each of them could be
added first. -/
theorem foldlM_applyForeignKey_ok_iff
    {foreignKeys : List (TablePath × ForeignKeyDocument)} :
    (∃ m', foreignKeys.foldlM
        (fun m (path, fk) => m.applyForeignKey path fk) m = .ok m') ↔
      ∀ e ∈ foreignKeys, e.2.Resolves m e.1 := by
  induction foreignKeys generalizing m with
  | nil =>
    constructor
    · simp
    · intro _
      exact ⟨m, rfl⟩
  | cons e rest ih =>
    obtain ⟨source, doc⟩ := e
    rw [List.forall_mem_cons]
    constructor
    · rintro ⟨m', h⟩
      rw [List.foldlM_cons] at h
      obtain ⟨extended, hfirst, hrest⟩ := bind_eq_ok.1 h
      refine ⟨applyForeignKey_ok_iff.1 ⟨extended, hfirst⟩, fun e he => ?_⟩
      obtain ⟨mapping, hdescribes, hends⟩ := ih.1 ⟨m', hrest⟩ e he
      obtain ⟨_, _, _, rfl⟩ := applyForeignKey_eq_ok.1 hfirst
      exact ⟨mapping, hdescribes, hasEnds_link_iff.1 hends⟩
    · rintro ⟨⟨mapping, hdescribes, hends⟩, hothers⟩
      have hfirst := applyForeignKey_eq_ok.2
        ⟨mapping, doc.mapping_eq_ok_iff.2 hdescribes, hends, rfl⟩
      obtain ⟨m', hrest⟩ := (ih (m := m.link ⟨source, mapping⟩ doc)).2
        fun e he => by
          obtain ⟨mapping', hdescribes', hends'⟩ := hothers e he
          exact ⟨mapping', hdescribes', hasEnds_link_iff.2 hends'⟩
      refine ⟨m', ?_⟩
      rw [List.foldlM_cons]
      exact bind_eq_ok.2 ⟨_, hfirst, hrest⟩

end Model

/-! ## Schemas -/

namespace SchemaDocument

/-- The descriptions of the tables, each with the name that its table gets. -/
def tableDocuments (doc : SchemaDocument) : List TableDocument :=
  doc.tables.entries.map TableDocument.named

/-- The described tables that can be built. -/
def built (doc : SchemaDocument) (settings : Settings) (name : String) :
    List Table :=
  doc.tableDocuments.filterMap fun table =>
    (table.build name settings).toOption

/-- The model with all tables of the described schema and their keys, before the
first of their foreign keys. -/
def extend (doc : SchemaDocument) (settings : Settings) (m : Model)
    (name : String) : Model :=
  { m with
    schemas := m.schemas.insert name
      ((doc.bare name).withTables (doc.built settings name)) }

/-- The conditions on which a described schema of the given name is added to a
model. -/
structure Acceptable (doc : SchemaDocument) (settings : Settings) (m : Model)
    (name : String) : Prop where
  name_eq : doc.name = some name
  shortName : checkName "Schema" name = .ok ()
  validAcls : doc.acls.validate .schema = .ok ()
  notReserved : name ≠ m.systemSchema.name
  new : m.schemas.get? name = none
  builds : ∀ table ∈ doc.tableDocuments, ∃ t, table.build name settings = .ok t
  names : ((doc.built settings name).map Table.name).Nodup
  foreignKeys : ∀ table ∈ doc.tableDocuments, ∀ t,
    table.build name settings = .ok t →
      ∀ fk ∈ table.foreignKeys, fk.Resolves (doc.extend settings m name) t.path

end SchemaDocument

namespace SchemaDocument

variable {doc : SchemaDocument} {settings : Settings} {m : Model} {name : String}

theorem built_eq_of_mapM {tables : List Table}
    (h : (doc.tables.entries.mapM fun entry =>
      (TableDocument.named entry).build name settings) = .ok tables) :
    doc.built settings name = tables := by
  rw [← filterMap_toOption_of_mapM h]
  exact List.filterMap_map ..

/-- The foreign keys of the schema, beside the tables that they are of. -/
theorem mem_foreignKeysOf_iff {tables : List Table}
    (h : (doc.tables.entries.mapM fun entry =>
      (TableDocument.named entry).build name settings) = .ok tables)
    {e : TablePath × ForeignKeyDocument} :
    e ∈ foreignKeysOf doc.tables.entries tables ↔
      ∃ table ∈ doc.tableDocuments, ∃ t, table.build name settings = .ok t ∧
        t.path = e.1 ∧ e.2 ∈ table.foreignKeys := by
  unfold foreignKeysOf
  rw [List.mem_flatMap]
  constructor
  · rintro ⟨⟨entry, t⟩, hpair, he⟩
    obtain ⟨hentry, ht⟩ := (mem_zip_mapM_iff h).1 hpair
    obtain ⟨fk, hfk, rfl⟩ := List.mem_map.1 he
    exact ⟨_, List.mem_map_of_mem hentry, t, ht, rfl, hfk⟩
  · rintro ⟨table, htable, t, ht, hpath, hfk⟩
    obtain ⟨entry, hentry, rfl⟩ := List.mem_map.1 htable
    refine ⟨(entry, t), (mem_zip_mapM_iff h).2 ⟨hentry, ht⟩, ?_⟩
    exact List.mem_map.2 ⟨e.2, hfk, Prod.ext hpath rfl⟩

theorem acceptable_iff :
    doc.Acceptable settings m name ↔
      ∃ tables added, doc.Adds settings m name tables added ∧
        ∃ m', (foreignKeysOf doc.tables.entries tables).foldlM
          (fun m (path, fk) => m.applyForeignKey path fk) added = .ok m' := by
  simp only [Model.foldlM_applyForeignKey_ok_iff]
  constructor
  · intro h
    obtain ⟨tables, htables⟩ := mapM_ok_iff.2 fun entry hentry =>
      h.builds _ (List.mem_map_of_mem hentry)
    have hbuilt := built_eq_of_mapM htables
    refine ⟨tables, doc.extend settings m name, ⟨h.name_eq, h.shortName,
      h.validAcls, h.notReserved, h.new, htables, hbuilt ▸ h.names, ?_⟩, ?_⟩
    · rw [extend, hbuilt]
    · intro e he
      obtain ⟨table, htable, t, ht, hpath, hfk⟩ :=
        (mem_foreignKeysOf_iff htables).1 he
      rw [← hpath]
      exact h.foreignKeys table htable t ht e.2 hfk
  · rintro ⟨tables, added, h, hforeignKeys⟩
    have hbuilt := built_eq_of_mapM h.built
    have hadded : doc.extend settings m name = added := by
      rw [extend, hbuilt, h.added_eq]
    refine ⟨h.name_eq, h.shortName, h.validAcls, h.notReserved, h.new, ?_,
      hbuilt ▸ h.names, ?_⟩
    · intro table htable
      obtain ⟨entry, hentry, rfl⟩ := List.mem_map.1 htable
      exact mapM_ok_iff.1 ⟨tables, h.built⟩ entry hentry
    · intro table htable t ht fk hfk
      rw [hadded]
      exact hforeignKeys (t.path, fk) ((mem_foreignKeysOf_iff h.built).2
        ⟨table, htable, t, ht, rfl, hfk⟩)

theorem applySchema_ok_iff :
    (∃ m', m.applySchema doc settings = .ok m') ↔
      ∃ name, doc.Acceptable settings m name := by
  simp only [Model.applySchema_eq_ok, acceptable_iff]
  constructor
  · rintro ⟨m', name, tables, added, hadds, hfold⟩
    exact ⟨name, tables, added, hadds, m', hfold⟩
  · rintro ⟨name, tables, added, hadds, m', hfold⟩
    exact ⟨m', name, tables, added, hadds, hfold⟩

/-! ## The order of the tables -/

/-- The same schema, with its tables listed in another order. -/
structure Reorders (doc doc' : SchemaDocument) : Prop where
  name_eq : doc.name = doc'.name
  comment_eq : doc.comment = doc'.comment
  annotations_eq : doc.annotations = doc'.annotations
  acls_eq : doc.acls = doc'.acls
  tables : doc.tableDocuments.Perm doc'.tableDocuments

theorem Reorders.symm {doc doc' : SchemaDocument} (h : doc.Reorders doc') :
    doc'.Reorders doc :=
  ⟨h.name_eq.symm, h.comment_eq.symm, h.annotations_eq.symm, h.acls_eq.symm,
    h.tables.symm⟩

theorem Reorders.bare {doc doc' : SchemaDocument} (h : doc.Reorders doc')
    (name : String) : doc.bare name = doc'.bare name :=
  Schema.ext rfl h.comment_eq rfl h.annotations_eq h.acls_eq

theorem Reorders.built {doc doc' : SchemaDocument} (h : doc.Reorders doc')
    (settings : Settings) (name : String) :
    (doc.built settings name).Perm (doc'.built settings name) :=
  h.tables.filterMap _

end SchemaDocument

/-- Tables of different names fill a schema in any order. -/
theorem Schema.withTables_of_perm {empty : Schema} (hempty : empty.tables = ∅)
    {tables tables' : List Table} (hnames : (tables'.map Table.name).Nodup)
    (hperm : tables.Perm tables') :
    empty.withTables tables = empty.withTables tables' := by
  have hkeys : ((tables'.map fun t => (t.name, t)).map Prod.fst).Nodup := by
    rw [List.map_map]
    exact hnames
  have hentries := SortedMap.entries_ofList_perm hkeys
  have hsame := SortedMap.ofList_of_perm
    ((hperm.map fun t => (t.name, t)).trans hentries.symm)
  unfold withTables
  rw [hempty]
  exact congrArg (fun tables => { empty with tables := tables }) hsame

namespace SchemaDocument

variable {doc doc' : SchemaDocument} {settings : Settings} {m : Model}
  {name : String}

theorem Acceptable.reorder (h : doc.Acceptable settings m name)
    (hdocs : doc.Reorders doc') : doc'.Acceptable settings m name := by
  have hbuilt := hdocs.built settings name
  have hnames := (hbuilt.map Table.name).nodup_iff.1 h.names
  have hextend : doc'.extend settings m name = doc.extend settings m name := by
    unfold extend
    rw [← hdocs.bare, Schema.withTables_of_perm rfl hnames hbuilt]
  exact
    { name_eq := hdocs.name_eq ▸ h.name_eq
      shortName := h.shortName
      validAcls := hdocs.acls_eq ▸ h.validAcls
      notReserved := h.notReserved
      new := h.new
      builds := fun table htable =>
        h.builds table (hdocs.tables.mem_iff.2 htable)
      names := hnames
      foreignKeys := fun table htable t ht fk hfk => by
        rw [hextend]
        exact h.foreignKeys table (hdocs.tables.mem_iff.2 htable) t ht fk hfk }

end SchemaDocument

/-! ## Schemas of a session -/

namespace Session

/-- A session goes on with the model that its own model yields, and as it was if
it yields none. -/
theorem run_replaceBy (f : Session → Except Error Model) (s : Session) :
    (do replaceBy (← attempt (f (← get))) : Run Unit).run.run s =
      match f s with
      | .ok m => (.ok ⟨⟩, { s with snapshot := ⟨s.snapshot.stamp + 1, m⟩ })
      | .error e => (.error (.fault (.failed e)), s) := by
  change (attempt (f s) >>= replaceBy).run.run s = _
  cases f s <;> rfl

theorem run_applySchema (s : Session) (doc : SchemaDocument) :
    (applySchema doc).run.run s =
      match s.model.applySchema doc s.settings with
      | .ok m => (.ok ⟨⟩, { s with snapshot := ⟨s.snapshot.stamp + 1, m⟩ })
      | .error e => (.error (.fault (.failed e)), s) :=
  run_replaceBy (fun s => s.model.applySchema doc s.settings) s

/-- A described schema is added to a session's model exactly if it is acceptable,
in whatever order its tables come.  The session is as it was if it is not. -/
theorem applySchema_iff_acceptable (s : Session) (doc : SchemaDocument) :
    ((∃ m, s.model.applySchema doc s.settings = .ok m) ↔
        ∃ name, doc.Acceptable s.settings s.model name) ∧
      (∀ doc' : SchemaDocument, doc.Reorders doc' →
        ((∃ m, s.model.applySchema doc' s.settings = .ok m) ↔
          ∃ m, s.model.applySchema doc s.settings = .ok m)) ∧
      ∀ outcome s', (applySchema doc).run.run s = (outcome, s') →
        (∃ m, s.model.applySchema doc s.settings = .ok m ∧ outcome = .ok ⟨⟩ ∧
          s'.model = m) ∨
        ∃ e, s.model.applySchema doc s.settings = .error e ∧
          outcome = .error (.fault (.failed e)) ∧ s' = s := by
  refine ⟨SchemaDocument.applySchema_ok_iff, fun doc' hdocs => ?_,
    fun outcome s' hrun => ?_⟩
  · rw [SchemaDocument.applySchema_ok_iff, SchemaDocument.applySchema_ok_iff]
    exact exists_congr fun name =>
      ⟨fun h => h.reorder hdocs.symm, fun h => h.reorder hdocs⟩
  · rw [run_applySchema] at hrun
    cases happly : s.model.applySchema doc s.settings with
    | ok m =>
      rw [happly] at hrun
      cases hrun
      exact .inl ⟨m, rfl, rfl, rfl⟩
    | error e =>
      rw [happly] at hrun
      cases hrun
      exact .inr ⟨e, rfl, rfl, rfl⟩

end Session

end GovernedCatalog
