import GovernedCatalog.Model.Apply
import GovernedCatalog.Proofs.ColumnType.Canonical
import GovernedCatalog.Proofs.Model.Document

/-!
# Documents of what is there

A column, a key, a reference and a table has a document that describes it
completely.  What a document has built is built again from its own description:
names that were accepted once are accepted again, and a canonical type name
stands for itself.
-/

namespace GovernedCatalog

def Column.document (c : Column) : ColumnDocument where
  name := some c.name
  type := some c.type.document
  default := c.default?
  nullable := some c.nullable
  comment := c.comment
  annotations := c.annotations
  acls := c.acls
  bindings := c.bindings

def UniqueKey.document (key : UniqueKey) : KeyDocument where
  columns := some key.columns.elems
  constraints := key.constraints.elems
  comment := key.comment
  annotations := key.annotations

/-- Columns of the table, each with the name of the table. -/
def TablePath.pointers (path : TablePath) (columns : List String) :
    List ColumnPointer :=
  columns.map fun column => ⟨some path.schema, some path.table, column⟩

def Reference.document (r : Reference) : ForeignKeyDocument where
  sources := some (r.source.pointers r.mapping.sources)
  targets := some (r.mapping.target.pointers r.mapping.targets)
  constraints := r.constraints.elems
  onDelete := some r.onDelete
  onUpdate := some r.onUpdate
  comment := r.comment
  annotations := r.annotations
  acls := r.acls
  bindings := r.bindings

def Table.document (t : Table) : TableDocument where
  name := some t.name
  schema := some t.schema
  kind := some t.kind.name
  comment := t.comment
  columns := t.columns.map Column.document
  keys := t.keys.values.map UniqueKey.document
  foreignKeys := t.references.map Reference.document
  annotations := t.annotations
  acls := t.acls
  bindings := t.bindings

/-! ## Columns -/

theorem givenDefault_idem (default? : Option Json) :
    givenDefault (givenDefault default?) = givenDefault default? := by
  simp [givenDefault, Option.filter_filter]

theorem requireField_eq_ok {α : Type} {what field : String} {value? : Option α}
    {a : α} : requireField what field value? = .ok a ↔ value? = some a := by
  cases value? <;> simp [requireField]

attribute [ext] Column

/-- The document of a column is accepted, and describes the column. -/
structure ColumnDocument.Builds (doc : ColumnDocument) (path : TablePath)
    (position : Nat) (settings : Settings) (c : Column) : Prop where
  name : doc.name = some c.name
  shortName : checkName "Column" c.name = .ok ()
  type : ∃ typeDoc, doc.type = some typeDoc ∧
    typeDoc.build settings false = .ok c.type
  literal : ∀ value, givenDefault doc.default = some value →
    ∃ text, c.type.literal value = .ok text
  validAcls : doc.acls.validate .column = .ok ()
  validBindings : doc.bindings.validate .column = .ok ()
  table : c.table = path
  content : c.content = .stored position c.type (givenDefault doc.default)
  nullable : c.nullable = doc.nullable.getD true
  comment : c.comment = doc.comment
  annotations : c.annotations = doc.annotations
  acls : c.acls = doc.acls
  bindings : c.bindings = doc.bindings

namespace ColumnDocument

variable {doc : ColumnDocument} {path : TablePath} {position : Nat}
  {settings : Settings} {c : Column}

theorem builds_of_build (h : doc.build path position settings = .ok c) :
    doc.Builds path position settings c := by
  obtain ⟨name, hname, h⟩ := bind_eq_ok.1 h
  obtain ⟨⟨⟩, hshort, h⟩ := bind_eq_ok.1 h
  obtain ⟨typeDoc, htypeDoc, h⟩ := bind_eq_ok.1 h
  obtain ⟨type, htype, h⟩ := bind_eq_ok.1 h
  rw [requireField_eq_ok] at hname htypeDoc
  -- The steps after the check of the default.
  extract_lets default? bare fill at h
  have hfill : ∀ u, fill u = .ok c →
      (∀ value, default? = some value → ∃ text, type.literal value = .ok text) →
        doc.Builds path position settings c := by
    intro u h hliteral
    obtain ⟨⟨⟩, hacls, h⟩ := bind_eq_ok.1 h
    obtain ⟨⟨⟩, hbindings, h⟩ := bind_eq_ok.1 h
    cases h
    exact ⟨hname, hshort, ⟨typeDoc, htypeDoc, htype⟩, hliteral, hacls,
      hbindings, rfl, rfl, rfl, rfl, rfl, rfl, rfl⟩
  cases hdefault : default? with
  | none =>
    simp only [hdefault] at h
    exact hfill () h fun value hvalue => by simp [hdefault] at hvalue
  | some value =>
    simp only [hdefault] at h
    obtain ⟨u, hliteral, h⟩ := bind_eq_ok.1 h
    refine hfill u h fun value' hvalue => ?_
    rw [hdefault] at hvalue
    cases hvalue
    exact discard_eq_ok.1 hliteral

theorem Builds.build (h : doc.Builds path position settings c) :
    doc.build path position settings = .ok c := by
  obtain ⟨typeDoc, htypeDoc, htype⟩ := h.type
  refine bind_eq_ok.2 ⟨_, requireField_eq_ok.2 h.name, ?_⟩
  refine bind_eq_ok.2 ⟨⟨⟩, h.shortName, ?_⟩
  refine bind_eq_ok.2 ⟨_, requireField_eq_ok.2 htypeDoc, ?_⟩
  refine bind_eq_ok.2 ⟨_, htype, ?_⟩
  extract_lets default? bare fill
  have hfill : ∀ u, fill u = .ok c := by
    intro u
    refine bind_eq_ok.2 ⟨⟨⟩, h.validAcls, bind_eq_ok.2 ⟨⟨⟩, h.validBindings, ?_⟩⟩
    exact congrArg Except.ok (Column.ext rfl h.table.symm h.content.symm
      h.nullable.symm h.comment.symm h.annotations.symm h.acls.symm
      h.bindings.symm)
  cases hdefault : default? with
  | none => exact hfill ()
  | some value =>
    exact bind_eq_ok.2 ⟨⟨⟩, discard_eq_ok.2 (h.literal value hdefault), hfill ⟨⟩⟩

/-- A column that a document has built is built again from its description. -/
theorem Builds.document (h : doc.Builds path position settings c) :
    c.document.Builds path position settings c := by
  obtain ⟨typeDoc, htypeDoc, htype⟩ := h.type
  have hdefault : givenDefault c.document.default = givenDefault doc.default := by
    unfold Column.document Column.default?
    rw [h.content]
    exact givenDefault_idem doc.default
  exact
    { name := rfl
      shortName := h.shortName
      type := ⟨_, rfl, TypeDocument.build_document htype⟩
      literal := by
        rw [hdefault]
        exact h.literal
      validAcls := (congrArg (Acls.validate · .column) h.acls).trans h.validAcls
      validBindings :=
        (congrArg (Bindings.validate · .column) h.bindings).trans h.validBindings
      table := h.table
      content := hdefault ▸ h.content
      nullable := rfl
      comment := rfl
      annotations := rfl
      acls := rfl
      bindings := rfl }

end ColumnDocument

/-- One step of adding the described columns to a table at the path. -/
def ColumnDocument.addTo (path : TablePath) (settings : Settings) (t : Table)
    (entry : ColumnDocument × Nat) : Except Error Table := do
  t.addColumn (← entry.1.build path entry.2 settings)

namespace ColumnDocument.Builds

variable {doc : ColumnDocument} {path : TablePath} {next : Nat}
  {settings : Settings} {c : Column}

theorem position? (h : doc.Builds path next settings c) :
    c.position? = some next := by
  unfold Column.position?
  rw [h.content]

/-- A column that was built last comes last. -/
theorem insertColumn (h : doc.Builds path next settings c) {columns : List Column}
    (hnext : ∀ d ∈ columns, ∀ position, d.position? = some position →
      position < next) :
    Table.insertColumn c columns = columns ++ [c] :=
  Table.insertColumn_eq_append h.position? hnext

end ColumnDocument.Builds

/-- The described columns are added in order, and so are their descriptions. -/
theorem ColumnDocument.addTo_document {path : TablePath} {settings : Settings}
    {docs : List ColumnDocument} {next : Nat} {t t' : Table}
    (hnext : ∀ c ∈ t.columns, ∀ position, c.position? = some position →
      position < next)
    (h : (docs.zipIdx next).foldlM (addTo path settings) t = .ok t') :
    ∃ columns, t' = { t with columns := t.columns ++ columns } ∧
      ((columns.map Column.document).zipIdx next).foldlM (addTo path settings) t =
        .ok t' := by
  induction docs generalizing next t with
  | nil =>
    cases h
    exact ⟨[], by simp, rfl⟩
  | cons doc rest ih =>
    rw [List.zipIdx_cons, List.foldlM_cons] at h
    obtain ⟨first, hfirst, hrest⟩ := bind_eq_ok.1 h
    obtain ⟨c, hc, hadd⟩ := bind_eq_ok.1 hfirst
    have hbuilds := builds_of_build hc
    have happend := hbuilds.insertColumn hnext
    obtain ⟨-, hfirst'⟩ := Table.addColumn_eq_ok hadd
    rw [happend] at hfirst'
    have hnext' : ∀ d ∈ first.columns, ∀ position, d.position? = some position →
        position < next + 1 := by
      intro d hd position hd'
      rw [hfirst'] at hd
      rcases List.mem_append.1 hd with hd | hd
      · exact Nat.lt_succ_of_lt (hnext d hd position hd')
      · rw [List.mem_singleton.1 hd, hbuilds.position?] at hd'
        cases hd'
        exact Nat.lt_succ_self next
    obtain ⟨columns, ht', hcolumns⟩ := ih hnext' hrest
    refine ⟨c :: columns, ?_, ?_⟩
    · rw [ht', hfirst']
      simp
    · rw [List.map_cons, List.zipIdx_cons, List.foldlM_cons]
      refine bind_eq_ok.2 ⟨first, ?_, hcolumns⟩
      exact bind_eq_ok.2 ⟨c, hbuilds.document.build, hadd⟩

/-! ## Keys -/

theorem KeyDocument.addTo_eq_ok {doc : KeyDocument} {t t' : Table} :
    doc.addTo t = .ok t' ↔
      ∃ names, doc.columns = some names ∧
        (∀ name ∈ names, t.hasColumn name = true) ∧
        (doc.constraints.forM fun c => checkName "Key constraint" c.name) =
          .ok ⟨⟩ ∧
        t' = (t.addKey (.ofList names) none).updateKey (.ofList names)
          doc.describe := by
  have hmissing (names : List String) :
      (names.find? fun name => !t.hasColumn name) = none ↔
        ∀ name ∈ names, t.hasColumn name = true := by
    simp [List.find?_eq_none]
  unfold addTo
  simp only [bind_eq_ok, requireField_eq_ok]
  constructor
  · rintro ⟨names, hnames, h⟩
    cases hfind : names.find? fun name => !t.hasColumn name with
    | some name =>
      rw [hfind] at h
      cases h
    | none =>
      rw [hfind] at h
      obtain ⟨⟨⟩, hconstraints, h⟩ := bind_eq_ok.1 h
      cases h
      exact ⟨names, hnames, (hmissing names).1 hfind, hconstraints, rfl⟩
  · rintro ⟨names, hnames, hcolumns, hconstraints, rfl⟩
    refine ⟨names, hnames, ?_⟩
    rw [(hmissing names).2 hcolumns]
    exact bind_eq_ok.2 ⟨⟨⟩, hconstraints, rfl⟩

theorem KeyDocument.key?_describe (doc : KeyDocument) (t : Table)
    (columns columns' : ColumnSet) :
    ((t.addKey columns none).updateKey columns doc.describe).key? columns' =
      if columns' = columns then
        some (doc.describe ((t.key? columns).getD (.fresh t.path columns)))
      else t.key? columns' := by
  rw [Table.key?_updateKey, Table.key?_addKey, Table.key?_addKey, if_pos rfl]
  by_cases hcolumns : columns' = columns
  · rw [if_pos hcolumns, if_pos hcolumns]
    rfl
  · rw [if_neg hcolumns, if_neg hcolumns, if_neg hcolumns]

/-- A key that its description adds to a table. -/
structure UniqueKey.Described (key : UniqueKey) (t : Table) : Prop where
  table : key.table = t.path
  columns : ∀ name ∈ key.columns, t.hasColumn name = true
  shortNames : ∀ c ∈ key.constraints, checkName "Key constraint" c.name = .ok ()
  unlinked : key.referencedBy = ∅

namespace UniqueKey.Described

variable {key : UniqueKey} {t : Table} (h : key.Described t)

include h

/-- The other keys of the table do not matter. -/
theorem updated {keys : SortedMap ColumnSet UniqueKey} :
    key.Described { t with keys := keys } :=
  ⟨h.table, h.columns, h.shortNames, h.unlinked⟩

theorem describe {doc : KeyDocument}
    (hconstraints : (doc.constraints.forM fun c =>
      checkName "Key constraint" c.name) = .ok ⟨⟩) :
    (doc.describe key).Described t := by
  refine ⟨h.table, h.columns, fun c hc => ?_, h.unlinked⟩
  rcases (SortedSet.mem_foldl_insert doc.constraints).1 hc with hc | hc
  · exact h.shortNames c hc
  · exact forM_eq_ok hconstraints c hc

theorem describe_fresh :
    key.document.describe (.fresh t.path key.columns) = key :=
  UniqueKey.ext h.table.symm rfl (SortedSet.ofList_elems key.constraints)
    (Option.or_none ..) (SortedMap.ofList_entries key.annotations)
    h.unlinked.symm

theorem addTo_document (hnew : t.keys.get? key.columns = none) :
    key.document.addTo t =
      .ok { t with keys := t.keys.insert key.columns key } := by
  refine KeyDocument.addTo_eq_ok.2
    ⟨key.columns.elems, rfl, h.columns, forM_ok h.shortNames, ?_⟩
  rw [SortedSet.ofList_elems]
  have hkeys : t.keys.insert key.columns key =
      ((t.addKey key.columns none).updateKey key.columns
        key.document.describe).keys := by
    refine SortedMap.ext_get? fun columns => ?_
    change _ = Table.key? _ columns
    rw [SortedMap.get?_insert, KeyDocument.key?_describe, Table.key?, hnew,
      Option.getD_none, h.describe_fresh]
    rfl
  exact Table.ext rfl rfl rfl rfl rfl hkeys rfl rfl rfl rfl

end UniqueKey.Described

/-- Described keys over different columns are added one after the other. -/
theorem KeyDocument.foldlM_addTo_document {t : Table} {described : List UniqueKey}
    (hdescribed : ∀ key ∈ described, key.Described t)
    (hcolumns : (described.map UniqueKey.columns).Nodup)
    (hnew : ∀ key ∈ described, t.keys.get? key.columns = none) :
    (described.map UniqueKey.document).foldlM (fun t doc => doc.addTo t) t =
      .ok { t with
        keys := described.foldl (fun keys key => keys.insert key.columns key)
          t.keys } := by
  induction described generalizing t with
  | nil => rfl
  | cons key rest ih =>
    obtain ⟨hfresh, hrest⟩ := List.nodup_cons.1 hcolumns
    have hkey := (hdescribed key List.mem_cons_self).addTo_document
      (hnew key List.mem_cons_self)
    rw [List.map_cons, List.foldlM_cons]
    refine bind_eq_ok.2 ⟨_, hkey, ih ?_ hrest ?_⟩
    · intro key' hkey'
      exact (hdescribed key' (List.mem_cons_of_mem key hkey')).updated
    · intro key' hkey'
      have hne : key'.columns ≠ key.columns := fun heq =>
        hfresh (heq ▸ List.mem_map_of_mem hkey')
      rw [SortedMap.get?_insert, if_neg hne]
      exact hnew key' (List.mem_cons_of_mem key hkey')

/-- Every key of the table is one that its description adds. -/
def Table.KeysDescribed (t : Table) : Prop :=
  ∀ columns key, t.key? columns = some key →
    key.columns = columns ∧ key.Described t

theorem KeyDocument.addTo_described (doc : KeyDocument) {t : Table}
    (ht : t.KeysDescribed) :
    Ensures (doc.addTo t) fun t' =>
      t'.KeysDescribed ∧ ∃ keys, t' = { t with keys := keys } := by
  intro t' h
  obtain ⟨names, -, hnames, hconstraints, rfl⟩ := addTo_eq_ok.1 h
  refine ⟨fun columns key hkey => ?_, _, rfl⟩
  rw [key?_describe] at hkey
  by_cases hcolumns : columns = .ofList names
  · subst hcolumns
    rw [if_pos rfl, Option.some.injEq] at hkey
    subst hkey
    cases hold : t.key? (.ofList names) with
    | none =>
      have hfresh : (UniqueKey.fresh t.path (.ofList names)).Described t :=
        ⟨rfl, fun name hname => hnames name (SortedSet.mem_ofList.1 hname),
          fun c hc => absurd hc (SortedSet.not_mem_empty c), rfl⟩
      exact ⟨rfl, (hfresh.describe hconstraints).updated⟩
    | some old =>
      obtain ⟨heq, hdescribed⟩ := ht _ old hold
      exact ⟨heq, (hdescribed.describe hconstraints).updated⟩
  · rw [if_neg hcolumns] at hkey
    obtain ⟨heq, hdescribed⟩ := ht columns key hkey
    exact ⟨heq, hdescribed.updated⟩

theorem KeyDocument.foldlM_addTo_described {docs : List KeyDocument} {t : Table}
    (hempty : t.keys = ∅) :
    Ensures (docs.foldlM (fun t doc => doc.addTo t) t) fun t' =>
      t'.KeysDescribed ∧ ∃ keys, t' = { t with keys := keys } := by
  refine .foldlM (fun t₁ doc _ ht₁ => ?_) ?_
  · intro t₂ ht₂
    obtain ⟨hdescribed, keys, rfl⟩ := ht₁
    obtain ⟨hdescribed', keys', rfl⟩ := doc.addTo_described hdescribed t₂ ht₂
    exact ⟨hdescribed', keys', rfl⟩
  · refine ⟨fun columns key hkey => ?_, t.keys, rfl⟩
    simp [Table.key?, hempty] at hkey

/-- The keys that documents have added to a table without keys are added again
by their descriptions. -/
theorem KeyDocument.addTo_document {docs : List KeyDocument} {t t' : Table}
    (hempty : t.keys = ∅)
    (h : docs.foldlM (fun t doc => doc.addTo t) t = .ok t') :
    (∃ keys, t' = { t with keys := keys }) ∧
      (t'.keys.values.map UniqueKey.document).foldlM (fun t doc => doc.addTo t) t =
        .ok t' := by
  obtain ⟨hdescribed, keys, rfl⟩ := foldlM_addTo_described hempty t' h
  refine ⟨⟨keys, rfl⟩, ?_⟩
  have hmem : ∀ key ∈ keys.values, key.Described t := by
    intro key hkey
    obtain ⟨columns, hget⟩ := SortedMap.mem_values_iff.1 hkey
    exact (hdescribed columns key hget).2.updated
  have hnodup : (keys.values.map UniqueKey.columns).Nodup :=
    SortedMap.nodup_map id fun hget => (hdescribed _ _ hget).1
  rw [foldlM_addTo_document hmem hnodup fun key _ => by simp [hempty]]
  have hkeys : keys.values.foldl (fun keys key => keys.insert key.columns key)
      t.keys = keys := by
    conv_rhs => rw [← keys.ofList_entries]
    rw [hempty, SortedMap.values, SortedMap.ofList, List.foldl_map]
    refine List.foldl_ext _ _ _ fun found e he => ?_
    have hcolumns := (hdescribed e.1 e.2 (SortedMap.get?_eq_some_iff.2 he)).1
    rw [hcolumns]
  rw [hkeys]

/-! ## Tables -/

/-- The described table without columns and keys. -/
def TableDocument.bare (doc : TableDocument) (schema name : String)
    (kind : TableKind) : Table :=
  { Table.fresh schema name kind with
    comment := doc.comment
    annotations := doc.annotations
    acls := doc.acls
    bindings := doc.bindings }

/-- The table with the described columns and keys. -/
def TableDocument.fill (doc : TableDocument) (schema name : String)
    (kind : TableKind) (settings : Settings) : Except Error Table := do
  doc.acls.validate .table
  doc.bindings.validate .table
  let withColumns ← doc.columns.zipIdx.foldlM
    (ColumnDocument.addTo ⟨schema, name⟩ settings) (doc.bare schema name kind)
  doc.keys.foldlM (fun t key => KeyDocument.addTo key t) withColumns

/-- The document is for a table of the schema with the name and kind. -/
structure TableDocument.IsFor (doc : TableDocument) (schema name : String)
    (kind : TableKind) : Prop where
  name_eq : doc.name = some name
  shortName : checkName "Table" name = .ok ()
  schema_eq : ∀ found, doc.schema = some found → found = schema
  kind_eq : (match doc.kind with
    | some text => TableKind.ofText text
    | none => .ok .table) = .ok kind

theorem TableDocument.build_eq_ok {doc : TableDocument} {schema : String}
    {settings : Settings} {t : Table} :
    doc.build schema settings = .ok t ↔
      ∃ name kind, doc.IsFor schema name kind ∧
        doc.fill schema name kind settings = .ok t := by
  constructor
  · intro h
    obtain ⟨name, hname, h⟩ := bind_eq_ok.1 h
    obtain ⟨⟨⟩, hshort, h⟩ := bind_eq_ok.1 h
    rw [requireField_eq_ok] at hname
    -- The steps after the checks of the schema and of the kind.
    extract_lets fill readKind at h
    have hread : ∀ u, readKind u = .ok t →
        (∀ found, doc.schema = some found → found = schema) →
          ∃ name kind, doc.IsFor schema name kind ∧
            doc.fill schema name kind settings = .ok t := by
      intro u h hschema
      cases hkind : doc.kind with
      | none =>
        simp only [readKind, hkind] at h
        exact ⟨name, .table, ⟨hname, hshort, hschema, by rw [hkind]⟩, h⟩
      | some text =>
        simp only [readKind, hkind] at h
        obtain ⟨kind, htext, h⟩ := bind_eq_ok.1 h
        exact ⟨name, kind, ⟨hname, hshort, hschema, by rwa [hkind]⟩, h⟩
    cases hschema : doc.schema with
    | none =>
      simp only [hschema] at h
      exact hread () h fun found hfound => by simp [hschema] at hfound
    | some found =>
      simp only [hschema] at h
      by_cases hfound : (found != schema) = true
      · rw [if_pos hfound] at h
        cases h
      · rw [if_neg hfound] at h
        refine hread () h fun found' hfound' => ?_
        rw [hschema] at hfound'
        cases hfound'
        simpa using hfound
  · rintro ⟨name, kind, hfor, hfill⟩
    refine bind_eq_ok.2 ⟨name, requireField_eq_ok.2 hfor.name_eq, ?_⟩
    refine bind_eq_ok.2 ⟨⟨⟩, hfor.shortName, ?_⟩
    extract_lets fill readKind
    have hkind := hfor.kind_eq
    have hread : ∀ u, readKind u = .ok t := by
      intro u
      simp only [readKind]
      cases htext : doc.kind with
      | none =>
        rw [htext] at hkind
        cases hkind
        exact hfill
      | some text =>
        rw [htext] at hkind
        exact bind_eq_ok.2 ⟨kind, hkind, hfill⟩
    cases hschema : doc.schema with
    | none => exact hread ()
    | some found =>
      have hfound : ¬(found != schema) = true := by
        simpa using hfor.schema_eq found hschema
      simp only [if_neg hfound]
      exact hread ()

theorem TableKind.ofText_name (kind : TableKind) :
    ofText kind.name = .ok kind := by
  cases kind <;> rfl

/-- A table that a document has built is built again from its description. -/
theorem TableDocument.build_document {doc : TableDocument} {schema : String}
    {settings : Settings} {t : Table} (h : doc.build schema settings = .ok t) :
    t.document.build schema settings = .ok t := by
  obtain ⟨name, kind, hfor, h⟩ := build_eq_ok.1 h
  obtain ⟨⟨⟩, hacls, h⟩ := bind_eq_ok.1 h
  obtain ⟨⟨⟩, hbindings, h⟩ := bind_eq_ok.1 h
  obtain ⟨withColumns, hcolumns, hkeys⟩ := bind_eq_ok.1 h
  have hpositions : ∀ c ∈ (doc.bare schema name kind).columns,
      ∀ position, c.position? = some position → position < 0 := by
    intro c hc
    cases hc
  obtain ⟨columns, hwithColumns, hcolumns'⟩ :=
    ColumnDocument.addTo_document hpositions hcolumns
  obtain ⟨⟨keys, ht⟩, hkeys'⟩ :=
    KeyDocument.addTo_document (by rw [hwithColumns]; rfl) hkeys
  have hcolumnsOf : t.columns = columns := by
    rw [ht, hwithColumns]
    rfl
  have hbare : t.document.bare schema name kind = doc.bare schema name kind := by
    rw [ht, hwithColumns]
    rfl
  refine build_eq_ok.2 ⟨name, kind, ?_, ?_⟩
  · rw [ht, hwithColumns]
    exact ⟨rfl, hfor.shortName, fun found hfound => (Option.some.inj hfound).symm,
      TableKind.ofText_name kind⟩
  · refine bind_eq_ok.2 ⟨⟨⟩, ?_, bind_eq_ok.2 ⟨⟨⟩, ?_, bind_eq_ok.2 ⟨withColumns, ?_, hkeys'⟩⟩⟩
    · rw [ht, hwithColumns]
      exact hacls
    · rw [ht, hwithColumns]
      exact hbindings
    · rw [hbare, Table.document, hcolumnsOf]
      exact hcolumns'

end GovernedCatalog
