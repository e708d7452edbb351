import GovernedCatalog.Proofs.Document.Description
import GovernedCatalog.Proofs.Entity.Mapping
import GovernedCatalog.Proofs.Model.Remainder

/-!
# References from their descriptions

A closed model is determined by its references and by what is left of it without
them.  The references that documents have added to a model are therefore added
again by their descriptions, in any order.
-/

namespace GovernedCatalog

/-! ## Mappings -/

/-- The names and the policy of a described reference are accepted. -/
structure ForeignKeyDocument.Accepted (doc : ForeignKeyDocument) : Prop where
  shortNames : (doc.constraints.forM fun c =>
    checkName "Foreign-key constraint" c.name) = .ok ⟨⟩
  validAcls : doc.acls.validate .keyReference = .ok ()
  validBindings : doc.bindings.validate .keyReference = .ok ()

theorem ForeignKeyDocument.mapping_ensures (doc : ForeignKeyDocument)
    (source : TablePath) :
    Ensures (doc.mapping source) fun _ => doc.Accepted := by
  unfold mapping
  refine .after fun sources => .after fun targets => ?_
  extract_lets pairs readTargets
  have htargets : ∀ u, Ensures (readTargets u) fun _ => doc.Accepted := by
    intro u
    cases targets with
    | nil => exact .error
    | cons first rest =>
      refine .ite .error_bind (.ite .error_bind fun mapping h => ?_)
      obtain ⟨⟨⟩, hnames, h⟩ := bind_eq_ok.1 h
      obtain ⟨⟨⟩, hacls, h⟩ := bind_eq_ok.1 h
      obtain ⟨⟨⟩, hbindings, -⟩ := bind_eq_ok.1 h
      exact ⟨hnames, hacls, hbindings⟩
  exact .ite .error_bind (htargets ())

theorem ForeignKeyDocument.Accepted.describe {doc : ForeignKeyDocument}
    (h : doc.Accepted) {r : Reference} (hr : ∀ c ∈ r.constraints,
      checkName "Foreign-key constraint" c.name = .ok ⟨⟩) :
    (doc.describe r).document.Accepted := by
  refine ⟨forM_ok fun c hc => ?_, h.validAcls, h.validBindings⟩
  rcases (SortedSet.mem_foldl_insert doc.constraints).1 hc with hc | hc
  · exact hr c hc
  · exact forM_eq_ok h.shortNames c hc

theorem TablePath.tablePath_of_mem_pointers {path inside : TablePath}
    {columns : List String} {p : ColumnPointer} (h : p ∈ path.pointers columns) :
    p.tablePath inside = path := by
  obtain ⟨column, -, rfl⟩ := List.mem_map.1 h
  rfl

theorem TablePath.any_pointers_ne (path inside : TablePath)
    (columns : List String) :
    ((path.pointers columns).any fun p => p.tablePath inside != path) = false := by
  rw [List.any_eq_false]
  intro p hp
  simp [tablePath_of_mem_pointers hp]

theorem ReferenceMap.zip_pointers (mapping : ReferenceMap) (source : TablePath) :
    ((source.pointers mapping.sources).zip
      (mapping.target.pointers mapping.targets)).map
        (fun (s, t) => (s.column, t.column)) = mapping.pairs.entries := by
  unfold TablePath.pointers sources targets SortedMap.keys SortedMap.values
  induction mapping.pairs.entries with
  | nil => rfl
  | cons e rest ih => exact congrArg (e :: ·) ih

theorem Reference.mapping_document {r : Reference} (h : r.document.Accepted) :
    r.document.mapping r.source = .ok r.mapping := by
  have hlength : (r.source.pointers r.mapping.sources).length =
      (r.mapping.target.pointers r.mapping.targets).length := by
    simp [TablePath.pointers, ReferenceMap.sources, ReferenceMap.targets,
      SortedMap.keys, SortedMap.values]
  have hsources := r.source.any_pointers_ne r.source r.mapping.sources
  have htargets := r.mapping.target.any_pointers_ne r.source r.mapping.targets
  have hpairs := r.mapping.zip_pointers r.source
  obtain ⟨first, rest, hlist⟩ : ∃ first rest,
      r.mapping.target.pointers r.mapping.targets = first :: rest := by
    refine List.exists_cons_of_ne_nil fun hnil => r.mapping.nonempty ?_
    simpa [TablePath.pointers, ReferenceMap.targets, SortedMap.values] using hnil
  have hfirst : first.tablePath r.source = r.mapping.target :=
    TablePath.tablePath_of_mem_pointers (hlist ▸ List.mem_cons_self)
  unfold ForeignKeyDocument.mapping
  refine bind_eq_ok.2 ⟨_, rfl, bind_eq_ok.2 ⟨_, rfl, ?_⟩⟩
  rw [if_neg (not_not.2 hlength), hpairs]
  rw [hlist] at htargets ⊢
  simp only [hfirst]
  rw [htargets, hsources]
  refine bind_eq_ok.2 ⟨⟨⟩, h.shortNames, bind_eq_ok.2 ⟨⟨⟩, h.validAcls, ?_⟩⟩
  refine bind_eq_ok.2 ⟨⟨⟩, h.validBindings, ?_⟩
  rw [ReferenceMap.ofPairs_entries]
  rfl

/-! ## Models without their references -/

/-- The table without the references from and to it. -/
def Table.unlinked (t : Table) : Table :=
  { t with
    keys := t.keys.mapValues fun _ key => { key with referencedBy := ∅ }
    foreignKeys := ∅ }

def Schema.unlinked (s : Schema) : Schema :=
  { s with tables := s.tables.mapValues fun _ t => t.unlinked }

def Model.unlinked (m : Model) : Model :=
  { m with schemas := m.schemas.mapValues fun _ s => s.unlinked }

namespace Table

theorem key?_unlinked (t : Table) (columns : ColumnSet) :
    t.unlinked.key? columns =
      (t.key? columns).map fun key => { key with referencedBy := ∅ } :=
  SortedMap.get?_mapValues ..

theorem unlinked_updateKey (t : Table) (columns : ColumnSet)
    (f : UniqueKey → SortedSet ReferenceId) :
    (t.updateKey columns fun key =>
      { key with referencedBy := f key }).unlinked = t.unlinked := by
  have hkeys : (t.updateKey columns fun key =>
      { key with referencedBy := f key }).unlinked.keys = t.unlinked.keys := by
    refine SortedMap.ext_get? fun columns' => ?_
    change Table.key? _ columns' = t.unlinked.key? columns'
    rw [key?_unlinked, key?_unlinked, key?_updateKey]
    by_cases hcolumns : columns' = columns
    · rw [if_pos hcolumns, hcolumns, Option.map_map]
      rfl
    · rw [if_neg hcolumns]
  exact Table.ext rfl rfl rfl rfl rfl hkeys rfl rfl rfl rfl

theorem Unlinked.unlinked_eq {t : Table} {path : TablePath}
    (ht : t.Unlinked path) : t.unlinked = t := by
  have hkeys : t.unlinked.keys = t.keys := by
    refine SortedMap.ext_get? fun columns => ?_
    change t.unlinked.key? columns = t.key? columns
    rw [key?_unlinked]
    cases hkey : t.key? columns with
    | none => rfl
    | some key =>
      refine congrArg some (UniqueKey.ext rfl rfl rfl rfl rfl ?_)
      refine SortedSet.ext_mem fun id => ?_
      simp only [SortedSet.not_mem_empty, false_iff]
      exact fun hid => ht.no_links columns id ⟨key, hkey, hid⟩
  exact Table.ext rfl rfl rfl rfl rfl hkeys ht.no_foreignKeys.symm rfl rfl rfl

/-- A table is determined by its links and by what is left of it without them. -/
theorem eq_of_unlinked {t t' : Table} (h : t.unlinked = t'.unlinked)
    (hlinks : ∀ columns key key', t.key? columns = some key →
      t'.key? columns = some key' → key.referencedBy = key'.referencedBy)
    (hforeignKeys : t.foreignKeys = t'.foreignKeys) : t = t' := by
  obtain ⟨hschema, hname, hkind, hcomment, hcolumns, -, -, hannotations, hacls,
    hbindings⟩ := Table.ext_iff.1 h
  have hkeys : t.keys = t'.keys := by
    refine SortedMap.ext_get? fun columns => ?_
    change t.key? columns = t'.key? columns
    have hkey := congrArg (Table.key? · columns) h
    simp only [key?_unlinked] at hkey
    cases hget : t.key? columns with
    | none =>
      rw [hget, Option.map_none] at hkey
      exact (Option.map_eq_none_iff.1 hkey.symm).symm
    | some key =>
      rw [hget] at hkey
      obtain ⟨key', hget', hsame⟩ := Option.map_eq_some_iff.1 hkey.symm
      obtain ⟨htable, hcolumns, hconstraints, hcomment, hannotations, -⟩ :=
        UniqueKey.ext_iff.1 hsame
      rw [hget']
      exact congrArg some (UniqueKey.ext htable.symm hcolumns.symm
        hconstraints.symm hcomment.symm hannotations.symm
        (hlinks columns key key' hget hget'))
  exact Table.ext hschema hname hkind hcomment hcolumns hkeys hforeignKeys
    hannotations hacls hbindings

namespace Named

variable {t : Table} {path : TablePath}

theorem get?_references (ht : t.Named path) {columns : ColumnSet}
    {fk : ForeignKey} (hfk : t.foreignKeys.get? columns = some fk)
    (mapping : ReferenceMap) :
    fk.references.get? mapping =
      if mapping.fromColumns = columns then t.reference? mapping else none := by
  by_cases hcolumns : mapping.fromColumns = columns
  · rw [if_pos hcolumns, reference?, hcolumns, hfk]
    rfl
  · rw [if_neg hcolumns, Option.eq_none_iff_forall_ne_some]
    exact fun r hr => hcolumns ((ht.foreignKey hfk).reference hr).2.2

end Named

theorem WellFormed.foreignKey_of_references {t t' : Table} {path : TablePath}
    (ht : t.WellFormed path) (ht' : t'.WellFormed path)
    (h : ∀ mapping, t.reference? mapping = t'.reference? mapping)
    {columns : ColumnSet} {fk : ForeignKey}
    (hfk : t.foreignKeys.get? columns = some fk) :
    t'.foreignKeys.get? columns = some fk := by
  obtain ⟨mapping, r, hr⟩ :=
    SortedMap.exists_of_isEmpty_eq_false (ht.foreignKey_nonempty hfk)
  have hnamed := ht.foreignKey hfk
  obtain ⟨_, _, hcolumns⟩ := hnamed.reference hr
  have hreference : t'.reference? mapping = some r := by
    rw [← h, ← hr, ht.get?_references hfk, if_pos hcolumns]
  obtain ⟨fk', hfk', _⟩ := reference?_eq_some_iff.1 hreference
  rw [hcolumns] at hfk'
  have hnamed' := ht'.foreignKey hfk'
  rw [hfk']
  refine congrArg some (ForeignKey.ext ?_ ?_ (SortedMap.ext_get? fun mapping => ?_))
  · rw [hnamed.table_eq, hnamed'.table_eq]
  · rw [hnamed.columns_eq, hnamed'.columns_eq]
  · rw [ht.get?_references hfk, ht'.get?_references hfk', h]

/-- The foreign keys of a table are determined by its references. -/
theorem WellFormed.foreignKeys_eq {t t' : Table} {path : TablePath}
    (ht : t.WellFormed path) (ht' : t'.WellFormed path)
    (h : ∀ mapping, t.reference? mapping = t'.reference? mapping) :
    t.foreignKeys = t'.foreignKeys := by
  refine SortedMap.ext_get? fun columns => Option.ext fun fk => ?_
  exact ⟨ht.foreignKey_of_references ht' h,
    ht'.foreignKey_of_references ht fun mapping => (h mapping).symm⟩

end Table

namespace Model

theorem table?_unlinked (m : Model) (path : TablePath) :
    m.unlinked.table? path = (m.table? path).map Table.unlinked := by
  unfold table? unlinked
  rw [SortedMap.get?_mapValues]
  cases m.schemas.get? path.schema with
  | none => rfl
  | some s => exact SortedMap.get?_mapValues ..

theorem emptied_unlinked (m : Model) (name : String) :
    (m.unlinked.schemas.get? name).map Schema.emptied =
      (m.schemas.get? name).map Schema.emptied := by
  unfold unlinked
  rw [SortedMap.get?_mapValues, Option.map_map]
  rfl

theorem unlinked_updateTable (m : Model) (path : TablePath) {f : Table → Table}
    (hf : ∀ t, (f t).unlinked = t.unlinked) :
    (m.updateTable path f).unlinked = m.unlinked := by
  refine eq_of_tables (fun name => ?_) (fun path' => ?_) rfl rfl rfl
  · rw [emptied_unlinked, emptied_unlinked, emptied_updateTable]
  · rw [table?_unlinked, table?_unlinked, table?_updateTable]
    by_cases hpath : path' = path
    · rw [if_pos hpath, hpath, Option.map_map]
      exact congrArg (Option.map · (m.table? path)) (funext hf)
    · rw [if_neg hpath]

theorem unlinked_table {m n : Model} (h : m.unlinked = n.unlinked)
    {path : TablePath} {t : Table} (ht : m.table? path = some t) :
    ∃ t', n.table? path = some t' ∧ t'.unlinked = t.unlinked := by
  have heq : (n.table? path).map Table.unlinked = some t.unlinked := by
    rw [← table?_unlinked, ← h, table?_unlinked, ht]
    rfl
  exact Option.map_eq_some_iff.1 heq

/-- A closed model is determined by its references and by what is left of it
without them. -/
theorem Closed.eq_of_unlinked {m n : Model} (hm : m.Closed) (hn : n.Closed)
    (hunlinked : m.unlinked = n.unlinked)
    (hreference : ∀ id, m.reference? id = n.reference? id) : m = n := by
  obtain ⟨-, hsystem, hannotations, hacls⟩ := Model.ext_iff.1 hunlinked
  refine eq_of_tables (fun name => ?_) (fun path => ?_) hsystem hannotations hacls
  · rw [← emptied_unlinked, hunlinked, emptied_unlinked]
  cases ht : m.table? path with
  | none =>
    cases ht' : n.table? path with
    | none => rfl
    | some t' =>
      obtain ⟨t, hsome, _⟩ := unlinked_table hunlinked.symm ht'
      rw [ht] at hsome
      cases hsome
  | some t =>
    obtain ⟨t', ht', heq⟩ := unlinked_table hunlinked ht
    have hlinks : ∀ columns key key', t.key? columns = some key →
        t'.key? columns = some key' → key.referencedBy = key'.referencedBy := by
      intro columns key key' hkey hkey'
      refine SortedSet.ext_mem fun id => ?_
      rw [hm.mem_referencedBy (key?_eq_some_iff.2 ⟨t, ht, hkey⟩),
        hn.mem_referencedBy (key?_eq_some_iff.2 ⟨t', ht', hkey'⟩),
        has_reference, has_reference, hreference]
    have hforeignKeys : t.foreignKeys = t'.foreignKeys := by
      refine (hm.table ht).foreignKeys_eq (hn.table ht') fun mapping => ?_
      have h := hreference ⟨path, mapping⟩
      unfold reference? at h
      simpa only [ht, ht', Option.bind_some] using h
    rw [ht', Table.eq_of_unlinked heq.symm hlinks hforeignKeys]

/-! ## Adding a reference -/

/-- Both ends of the reference are there. -/
structure HasEnds (m : Model) (id : ReferenceId) : Prop where
  key : ∃ key, m.key? id.mapping.target id.mapping.toColumns = some key
  columns : ∃ t, m.table? id.source = some t ∧
    ∀ name ∈ id.mapping.fromColumns, t.hasColumn name = true

theorem HasEnds.of_unlinked {m n : Model} {id : ReferenceId} (h : m.HasEnds id)
    (hunlinked : m.unlinked = n.unlinked) : n.HasEnds id := by
  obtain ⟨⟨key, hkey⟩, t, ht, hcolumns⟩ := h
  constructor
  · obtain ⟨target, htarget, hget⟩ := key?_eq_some_iff.1 hkey
    obtain ⟨target', htarget', heq⟩ := unlinked_table hunlinked htarget
    have hsame := congrArg (Table.key? · id.mapping.toColumns) heq
    simp only [Table.key?_unlinked, hget] at hsame
    obtain ⟨key', hget', -⟩ := Option.map_eq_some_iff.1 hsame
    exact ⟨key', key?_eq_some_iff.2 ⟨target', htarget', hget'⟩⟩
  · obtain ⟨t', ht', heq⟩ := unlinked_table hunlinked ht
    refine ⟨t', ht', fun name hname => ?_⟩
    have hsame := congrArg (fun u : Table => u.hasColumn name) heq
    exact hsame.trans (hcolumns name hname)

theorem Closed.hasEnds {m : Model} (hm : m.Closed) {id : ReferenceId}
    {r : Reference} (hr : m.reference? id = some r) : m.HasEnds id := by
  constructor
  · obtain ⟨key, hkey, -⟩ :=
      (hm.linked _ _ id).2 ⟨by rw [hr]; rfl, rfl, rfl⟩
    exact ⟨key, hkey⟩
  · obtain ⟨t, ht, hget⟩ := reference?_eq_some_iff.1 hr
    obtain ⟨fk, hfk, -⟩ := Table.reference?_eq_some_iff.1 hget
    exact ⟨t, ht, (hm.table ht).foreignKey_columns hfk⟩

end Model

/-- The reference that a document describes before its properties are filled
in. -/
def ForeignKeyDocument.fresh (doc : ForeignKeyDocument) (id : ReferenceId) :
    Reference :=
  .fresh id.source id.mapping (doc.onDelete.getD .noAction)
    (doc.onUpdate.getD .noAction)

namespace Model

/-- The model with a reference entered at both of its ends. -/
def enter (m : Model) (fresh : Reference) : Model :=
  (m.updateTable fresh.source (·.addReference fresh none)).updateTable
    fresh.mapping.target fun target =>
      target.updateKey fresh.mapping.toColumns fun key =>
        { key with referencedBy := key.referencedBy.insert fresh.id }

/-- The model with a described reference. -/
def link (m : Model) (id : ReferenceId) (doc : ForeignKeyDocument) : Model :=
  (m.enter (doc.fresh id)).updateTable id.source
    (·.updateReference id.mapping doc.describe)

theorem HasEnds.addReference {m : Model} {id : ReferenceId} (h : m.HasEnds id)
    (onDelete onUpdate : ReferentialAction) :
    m.addReference id.source id.mapping none onDelete onUpdate =
      .ok (m.enter (.fresh id.source id.mapping onDelete onUpdate)) := by
  obtain ⟨⟨key, hkey⟩, t, ht, hcolumns⟩ := h
  obtain ⟨target, htarget, hget⟩ := key?_eq_some_iff.1 hkey
  have hcontains : target.keys.contains id.mapping.toColumns = true :=
    SortedMap.contains_iff.2 ⟨key, hget⟩
  have hnames : (id.mapping.fromColumns.elems.forM fun name =>
      discard (t.column name)) = .ok ⟨⟩ := by
    refine forM_ok fun name hname => discard_eq_ok.2 ?_
    obtain ⟨c, hc⟩ := Option.isSome_iff_exists.1 (hcolumns name hname)
    exact ⟨c, Table.column_eq_ok_iff.2 hc⟩
  refine bind_eq_ok.2 ⟨target, table_eq_ok_iff.2 htarget, ?_⟩
  rw [if_pos hcontains]
  refine bind_eq_ok.2 ⟨t, table_eq_ok_iff.2 ht, ?_⟩
  exact bind_eq_ok.2 ⟨⟨⟩, hnames, rfl⟩

theorem applyForeignKey_eq_ok {m m' : Model} {source : TablePath}
    {doc : ForeignKeyDocument} :
    m.applyForeignKey source doc = .ok m' ↔
      ∃ mapping, doc.mapping source = .ok mapping ∧
        m.HasEnds ⟨source, mapping⟩ ∧ m' = m.link ⟨source, mapping⟩ doc := by
  constructor
  · intro h
    obtain ⟨mapping, hmapping, h⟩ := bind_eq_ok.1 h
    obtain ⟨extended, hextended, h⟩ := bind_eq_ok.1 h
    obtain ⟨hkey, hcolumns, rfl⟩ := addReference_eq_ok hextended
    cases h
    exact ⟨mapping, hmapping, ⟨hkey, hcolumns⟩, rfl⟩
  · rintro ⟨mapping, hmapping, hends, rfl⟩
    exact bind_eq_ok.2 ⟨mapping, hmapping,
      bind_eq_ok.2 ⟨_, hends.addReference _ _, rfl⟩⟩

theorem unlinked_enter (m : Model) (fresh : Reference) :
    (m.enter fresh).unlinked = m.unlinked := by
  have hsource := m.unlinked_updateTable fresh.source
    (f := (·.addReference fresh none)) fun _ => rfl
  rw [← hsource]
  exact unlinked_updateTable _ _ fun t => t.unlinked_updateKey _ _

theorem unlinked_link (m : Model) (id : ReferenceId)
    (doc : ForeignKeyDocument) : (m.link id doc).unlinked = m.unlinked := by
  rw [← m.unlinked_enter (doc.fresh id)]
  exact unlinked_updateTable _ id.source
    (f := (·.updateReference id.mapping doc.describe)) fun _ => rfl

theorem reference?_updateReference (m : Model) (id id' : ReferenceId)
    (f : Reference → Reference) :
    (m.updateTable id.source (·.updateReference id.mapping f)).reference? id' =
      if id' = id then (m.reference? id).map f else m.reference? id' := by
  obtain ⟨source, mapping⟩ := id
  obtain ⟨source', mapping'⟩ := id'
  rw [reference?_updateTable]
  unfold reference?
  by_cases hsource : source' = source
  · subst hsource
    by_cases hmapping : mapping' = mapping <;>
      cases m.table? source' <;>
        simp [Table.reference?_updateReference, hmapping]
  · simp [hsource]

theorem HasEnds.reference?_link {m : Model} {id : ReferenceId}
    (h : m.HasEnds id) (doc : ForeignKeyDocument) (id' : ReferenceId) :
    (m.link id doc).reference? id' =
      if id' = id then
        some (doc.describe ((m.reference? id).getD (doc.fresh id)))
      else m.reference? id' := by
  obtain ⟨-, t, ht, -⟩ := h
  have hsource : m.table? (doc.fresh id).source = some t := ht
  have henter : ∀ id', (m.enter (doc.fresh id)).reference? id' =
      if id' = id then some ((m.reference? id).getD (doc.fresh id))
      else m.reference? id' := by
    intro id'
    unfold enter
    rw [reference?_updateKey, reference?_addReference hsource]
    by_cases hid : id' = id
    · rw [hid]
      rfl
    · rw [if_neg hid]
      exact if_neg hid
  unfold link
  rw [reference?_updateReference, henter, henter, if_pos rfl]
  by_cases hid : id' = id
  · rw [if_pos hid, if_pos hid, Option.map_some]
  · rw [if_neg hid, if_neg hid, if_neg hid]

/-! ## Adding all references -/

/-- What the foreign keys of a schema have added to a model. -/
structure LinkedWithin (m : Model) (schema : String) (m' : Model) : Prop where
  unlinked_eq : m'.unlinked = m.unlinked
  others : ∀ id, id.source.schema ≠ schema →
    m'.reference? id = m.reference? id
  accepted : ∀ id r, id.source.schema = schema → m'.reference? id = some r →
    r.document.Accepted

theorem LinkedWithin.applyForeignKey {m m' : Model} {schema : String}
    (h : m.LinkedWithin schema m') {source : TablePath}
    (hsource : source.schema = schema) (doc : ForeignKeyDocument) :
    Ensures (m'.applyForeignKey source doc) (m.LinkedWithin schema) := by
  intro m'' happly
  obtain ⟨mapping, hmapping, hends, rfl⟩ := applyForeignKey_eq_ok.1 happly
  have hdoc := doc.mapping_ensures source mapping hmapping
  refine ⟨(unlinked_link ..).trans h.unlinked_eq, fun id hid => ?_,
    fun id r hid hr => ?_⟩
  · have hne : id ≠ ⟨source, mapping⟩ := by
      rintro rfl
      exact hid hsource
    rw [hends.reference?_link, if_neg hne, h.others id hid]
  · rw [hends.reference?_link] at hr
    by_cases hnew : id = ⟨source, mapping⟩
    · rw [if_pos hnew, Option.some.injEq] at hr
      subst hr
      refine hdoc.describe fun c hc => ?_
      cases hold : m'.reference? ⟨source, mapping⟩ with
      | none =>
        rw [hold] at hc
        exact absurd hc (SortedSet.not_mem_empty c)
      | some r =>
        rw [hold] at hc
        exact forM_eq_ok (h.accepted _ r hsource hold).shortNames c hc
    · rw [if_neg hnew] at hr
      exact h.accepted id r hid hr

theorem foldlM_applyForeignKey {m : Model} {schema : String}
    (hnone : ∀ id, id.source.schema = schema → m.reference? id = none)
    {foreignKeys : List (TablePath × ForeignKeyDocument)}
    (hsource : ∀ e ∈ foreignKeys, e.1.schema = schema) :
    Ensures (foreignKeys.foldlM (fun m (path, fk) => m.applyForeignKey path fk) m)
      (m.LinkedWithin schema) := by
  refine .foldlM (fun m' e he hm' => hm'.applyForeignKey (hsource e he) e.2) ?_
  refine ⟨rfl, fun _ _ => rfl, fun id r hid hr => ?_⟩
  rw [hnone id hid] at hr
  cases hr

theorem Reference.describe_fresh (r : Reference) :
    r.document.describe (r.document.fresh r.id) = r :=
  Reference.ext rfl rfl rfl rfl (SortedSet.ofList_elems r.constraints) rfl rfl
    rfl rfl

/-- References that are not there are added by their descriptions. -/
theorem foldlM_applyForeignKey_document {m : Model} {references : List Reference}
    (hids : (references.map Reference.id).Nodup)
    (hnone : ∀ r ∈ references, m.reference? r.id = none)
    (haccepted : ∀ r ∈ references, r.document.Accepted)
    (hends : ∀ r ∈ references, m.HasEnds r.id) :
    ∃ m', (references.map fun r => (r.source, r.document)).foldlM
        (fun m (path, fk) => m.applyForeignKey path fk) m = .ok m' ∧
      m'.unlinked = m.unlinked ∧
      (∀ r ∈ references, m'.reference? r.id = some r) ∧
      ∀ id, id ∉ references.map Reference.id →
        m'.reference? id = m.reference? id := by
  induction references generalizing m with
  | nil => exact ⟨m, rfl, rfl, fun _ h => absurd h List.not_mem_nil, fun _ _ => rfl⟩
  | cons r rest ih =>
    obtain ⟨hfresh, hrest⟩ := List.nodup_cons.1 hids
    simp only [List.forall_mem_cons] at hnone haccepted hends
    have hlink := hends.1.reference?_link r.document
    rw [hnone.1, Option.getD_none, Reference.describe_fresh] at hlink
    have happly : m.applyForeignKey r.source r.document =
        .ok (m.link r.id r.document) :=
      applyForeignKey_eq_ok.2
        ⟨r.mapping, Reference.mapping_document haccepted.1, hends.1, rfl⟩
    have hunlinked := m.unlinked_link r.id r.document
    obtain ⟨m', hfold, hunlinked', hthere, hothers⟩ := ih hrest
      (m := m.link r.id r.document)
      (fun r' hr' => by
        have hne : r'.id ≠ r.id := fun heq =>
          hfresh (heq ▸ List.mem_map_of_mem hr')
        rw [hlink, if_neg hne]
        exact hnone.2 r' hr')
      haccepted.2
      (fun r' hr' => (hends.2 r' hr').of_unlinked hunlinked.symm)
    refine ⟨m', ?_, hunlinked'.trans hunlinked, ?_, fun id hid => ?_⟩
    · rw [List.map_cons, List.foldlM_cons]
      exact bind_eq_ok.2 ⟨_, happly, hfold⟩
    · refine List.forall_mem_cons.2 ⟨?_, hthere⟩
      rw [hothers r.id hfresh, hlink, if_pos rfl]
    · rw [List.map_cons, List.mem_cons, not_or] at hid
      rw [hothers id hid.2, hlink, if_neg hid.1]

end Model

end GovernedCatalog
