import GovernedCatalog.Proofs.Document.Relinking
import GovernedCatalog.Proofs.Sql.DerivedName

/-!
# Names that documents add

A document brings names in at five places: for its schema, its tables, their columns,
and the constraints of keys and foreign keys.  Each of them is checked before it is
there, and all against one fixed limit, whatever limit the settings give.
-/

namespace GovernedCatalog

/-! ## Names in a model -/

/-- A place in a model where a name is used, with the name. -/
inductive NameUse
  | schema (name : String)
  | table (path : TablePath)
  | column (table : TablePath) (name : String)
  | keyConstraint (table : TablePath) (columns : ColumnSet) (constraint : ConstraintName)
  | referenceConstraint (reference : ReferenceId) (constraint : ConstraintName)
  deriving DecidableEq

def NameUse.name : NameUse → String
  | schema name => name
  | table path => path.table
  | column _ name => name
  | keyConstraint _ _ constraint => constraint.name
  | referenceConstraint _ constraint => constraint.name

/-- The database keeps the name, as far as the checks of names know. -/
def NameUse.Short (u : NameUse) : Prop := u.name.utf8ByteSize ≤ Sql.maxNameBytes

namespace Model

def Uses (m : Model) : NameUse → Prop
  | .schema name => (m.schemas.get? name).isSome
  | .table path => (m.table? path).isSome
  | .column path name => ∃ t, m.table? path = some t ∧ t.hasColumn name = true
  | .keyConstraint path columns constraint =>
      ∃ key, m.key? path columns = some key ∧ constraint ∈ key.constraints
  | .referenceConstraint id constraint =>
      ∃ r, m.reference? id = some r ∧ constraint ∈ r.constraints

/-- Every name of the second model is one of the first, or short. -/
def AddsShort (m m' : Model) : Prop := ∀ u, m'.Uses u → m.Uses u ∨ u.Short

theorem AddsShort.refl (m : Model) : m.AddsShort m := fun _ hu => .inl hu

theorem AddsShort.trans {m₁ m₂ m₃ : Model} (h : m₁.AddsShort m₂) (h' : m₂.AddsShort m₃) :
    m₁.AddsShort m₃ := fun u hu => (h' u hu).elim (h u) .inr

end Model

theorem short_of_checkName {what name : String} {u : Unit}
    (h : checkName what name = .ok u) : name.utf8ByteSize ≤ Sql.maxNameBytes := by
  unfold checkName at h
  split at h
  · cases h
  · next hsize => exact Nat.le_of_not_lt hsize

/-! ## One step -/

/-- The names in a table are short, apart from those of its foreign keys. -/
structure Table.ShortNames (t : Table) : Prop where
  name : t.name.utf8ByteSize ≤ Sql.maxNameBytes
  columns : ∀ c ∈ t.columns, c.name.utf8ByteSize ≤ Sql.maxNameBytes
  keys : t.KeysDescribed

theorem TableDocument.build_shortNames (doc : TableDocument) (schema : String)
    (settings : Settings) : Ensures (doc.build schema settings) Table.ShortNames := by
  intro t h
  obtain ⟨name, kind, hfor, h⟩ := build_eq_ok.1 h
  obtain ⟨⟨⟩, -, h⟩ := bind_eq_ok.1 h
  obtain ⟨⟨⟩, -, h⟩ := bind_eq_ok.1 h
  obtain ⟨withColumns, hcolumns, hkeys⟩ := bind_eq_ok.1 h
  have hfilled : withColumns.name = name ∧ withColumns.keys = ∅ ∧
      ∀ c ∈ withColumns.columns, c.name.utf8ByteSize ≤ Sql.maxNameBytes := by
    refine Ensures.foldlM (P := fun t => t.name = name ∧ t.keys = ∅ ∧
      ∀ c ∈ t.columns, c.name.utf8ByteSize ≤ Sql.maxNameBytes)
      (fun t₁ entry _ ht₁ => ?_) ⟨rfl, rfl, List.forall_mem_nil _⟩ _ hcolumns
    intro t₂ ht₂
    obtain ⟨c, hc, hadd⟩ := bind_eq_ok.1 ht₂
    have hshort := short_of_checkName (ColumnDocument.builds_of_build hc).shortName
    obtain ⟨-, rfl⟩ := Table.addColumn_eq_ok hadd
    refine ⟨ht₁.1, ht₁.2.1, fun d hd => ?_⟩
    rcases List.mem_cons.1 ((Table.insertColumn_perm c t₁.columns).mem_iff.1 hd)
      with rfl | hd
    · exact hshort
    · exact ht₁.2.2 d hd
  obtain ⟨hname, hempty, hshort⟩ := hfilled
  obtain ⟨hdescribed, keys, rfl⟩ := KeyDocument.foldlM_addTo_described hempty t hkeys
  exact ⟨hname ▸ short_of_checkName hfor.shortName, hshort, hdescribed⟩

namespace Model

variable {m : Model}

theorem addSchema_addsShort {s : Schema} (hbare : s.tables = ∅)
    (hname : s.name.utf8ByteSize ≤ Sql.maxNameBytes) :
    Ensures (m.addSchema s) m.AddsShort := by
  intro m' h u hu
  obtain ⟨hnone, rfl⟩ := addSchema_eq_ok h
  have htable : ∀ path : TablePath,
      ({ m with schemas := m.schemas.insert s.name s } : Model).table? path =
        m.table? path := by
    intro path
    by_cases hschema : path.schema = s.name
    · simp [table?, hschema, hnone, hbare]
    · simp [table?, hschema]
  cases u with
  | schema name =>
    by_cases hschema : name = s.name
    · exact .inr (hschema ▸ hname)
    · simp only [Uses, SortedMap.get?_insert, if_neg hschema] at hu
      exact .inl hu
  | table path => exact .inl (by simpa only [Uses, htable] using hu)
  | column path name => exact .inl (by simpa only [Uses, htable] using hu)
  | keyConstraint path columns c => exact .inl (by simpa only [Uses, key?, htable] using hu)
  | referenceConstraint id c => exact .inl (by simpa only [Uses, reference?, htable] using hu)

theorem addTable_addsShort {schema : String} {t : Table} (ht : t.ShortNames)
    (hforeignKeys : t.foreignKeys = ∅) : Ensures (m.addTable schema t) m.AddsShort := by
  intro m' h u hu
  obtain ⟨s, hs, -, rfl⟩ := addTable_eq_ok h
  have htable := table?_insertTable hs t
  cases u with
  | schema name =>
    refine .inl ?_
    simp only [Uses, schemas_insertTable hs] at hu
    by_cases hname : name = schema
    · rw [Uses, hname, hs]
      rfl
    · rw [if_neg hname] at hu
      exact hu
  | table path =>
    simp only [Uses, htable] at hu
    by_cases hpath : path = ⟨schema, t.name⟩
    · exact .inr (hpath ▸ ht.name)
    · rw [if_neg hpath] at hu
      exact .inl hu
  | column path name =>
    simp only [Uses, htable] at hu
    by_cases hpath : path = ⟨schema, t.name⟩
    · rw [if_pos hpath] at hu
      obtain ⟨t', heq, hcolumn⟩ := hu
      cases heq
      obtain ⟨c, hc⟩ := Option.isSome_iff_exists.1 hcolumn
      have hname : c.name = name := by simpa using List.find?_some hc
      exact .inr (hname ▸ ht.columns c (List.mem_of_find?_eq_some hc))
    · rw [if_neg hpath] at hu
      exact .inl hu
  | keyConstraint path columns c =>
    simp only [Uses, key?, htable] at hu
    by_cases hpath : path = ⟨schema, t.name⟩
    · rw [if_pos hpath] at hu
      obtain ⟨key, hkey, hc⟩ := hu
      exact .inr (short_of_checkName ((ht.keys columns key hkey).2.shortNames c hc))
    · rw [if_neg hpath] at hu
      exact .inl hu
  | referenceConstraint id c =>
    simp only [Uses, reference?, htable] at hu
    by_cases hpath : id.source = ⟨schema, t.name⟩
    · rw [if_pos hpath] at hu
      obtain ⟨r, hr, -⟩ := hu
      simp [Table.reference?, hforeignKeys] at hr
    · rw [if_neg hpath] at hu
      exact .inl hu

/-- Linking changes nothing but references and what refers to keys. -/
theorem Uses.of_unlinked {m' : Model} {u : NameUse} (h : m'.Uses u)
    (hunlinked : m'.unlinked = m.unlinked)
    (hother : ∀ id c, u ≠ .referenceConstraint id c) : m.Uses u := by
  cases u with
  | schema name =>
    have hsame := congrArg (fun n : Model => (n.schemas.get? name).isSome) hunlinked
    simp only [unlinked, SortedMap.get?_mapValues, Option.isSome_map] at hsame
    exact hsame.symm.trans h
  | table path =>
    obtain ⟨t, ht⟩ := Option.isSome_iff_exists.1 h
    obtain ⟨t', ht', -⟩ := unlinked_table hunlinked ht
    exact Option.isSome_iff_exists.2 ⟨t', ht'⟩
  | column path name =>
    obtain ⟨t, ht, hcolumn⟩ := h
    obtain ⟨t', ht', heq⟩ := unlinked_table hunlinked ht
    exact ⟨t', ht', (congrArg (fun u : Table => u.hasColumn name) heq).trans hcolumn⟩
  | keyConstraint path columns c =>
    obtain ⟨key, hkey, hc⟩ := h
    obtain ⟨t, ht, hget⟩ := key?_eq_some_iff.1 hkey
    obtain ⟨t', ht', heq⟩ := unlinked_table hunlinked ht
    have hsame := congrArg (Table.key? · columns) heq
    simp only [Table.key?_unlinked, hget, Option.map_some] at hsame
    obtain ⟨key', hget', hkeys⟩ := Option.map_eq_some_iff.1 hsame
    refine ⟨key', key?_eq_some_iff.2 ⟨t', ht', hget'⟩, ?_⟩
    have hconstraints := congrArg UniqueKey.constraints hkeys
    exact hconstraints ▸ hc
  | referenceConstraint id c => exact absurd rfl (hother id c)

theorem applyForeignKey_addsShort (m : Model) (source : TablePath)
    (doc : ForeignKeyDocument) : Ensures (m.applyForeignKey source doc) m.AddsShort := by
  intro m' h u hu
  obtain ⟨mapping, hmapping, hends, rfl⟩ := applyForeignKey_eq_ok.1 h
  have hshort := forM_eq_ok (doc.mapping_ensures source mapping hmapping).shortNames
  have hother := hu.of_unlinked (m.unlinked_link _ doc)
  cases u with
  | schema => exact .inl (hother nofun)
  | table => exact .inl (hother nofun)
  | column => exact .inl (hother nofun)
  | keyConstraint => exact .inl (hother nofun)
  | referenceConstraint id c =>
    obtain ⟨r, hr, hc⟩ := hu
    rw [hends.reference?_link] at hr
    by_cases hid : id = ⟨source, mapping⟩
    · rw [if_pos hid, Option.some.injEq] at hr
      subst hr hid
      rcases (SortedSet.mem_foldl_insert doc.constraints).1 hc with hc | hc
      · cases hold : m.reference? ⟨source, mapping⟩ with
        | none =>
          rw [hold] at hc
          exact absurd hc (SortedSet.not_mem_empty c)
        | some r =>
          rw [hold] at hc
          exact .inl ⟨r, hold, hc⟩
      · exact .inr (short_of_checkName (hshort c hc))
    · rw [if_neg hid] at hr
      exact .inl ⟨r, hr, hc⟩

/-! ## Whole documents -/

theorem applyBareTable_addsShort (m : Model) (schema : String) (doc : TableDocument)
    (settings : Settings) :
    Ensures (m.applyBareTable schema doc settings) fun result =>
      m.AddsShort result.1 := by
  unfold applyBareTable
  intro result h
  obtain ⟨t, ht, h⟩ := bind_eq_ok.1 h
  obtain ⟨m', hadd, h⟩ := bind_eq_ok.1 h
  cases h
  exact addTable_addsShort (doc.build_shortNames schema settings t ht)
    (doc.build_ensures schema settings t ht).no_foreignKeys m' hadd

theorem foldlM_applyForeignKey_addsShort (m : Model)
    (foreignKeys : List (TablePath × ForeignKeyDocument)) :
    Ensures (foreignKeys.foldlM (fun m (path, fk) => m.applyForeignKey path fk) m)
      m.AddsShort := by
  refine .foldlM (fun m₁ e _ hm₁ m₂ h => ?_) (AddsShort.refl m)
  exact hm₁.trans (m₁.applyForeignKey_addsShort e.1 e.2 m₂ h)

theorem applyTable_addsShort (m : Model) (schema : String) (doc : TableDocument)
    (settings : Settings) :
    Ensures (m.applyTable schema doc settings) fun result => m.AddsShort result.1 := by
  unfold applyTable
  refine .bind (m.applyBareTable_addsShort schema doc settings) ?_
  rintro ⟨extended, path⟩ hextended
  have hfold : Ensures (doc.foreignKeys.foldlM
      (fun m fk => m.applyForeignKey path fk) extended) m.AddsShort := by
    refine .foldlM (fun m₁ fk _ hm₁ m₂ h => ?_) hextended
    exact hm₁.trans (m₁.applyForeignKey_addsShort path fk m₂ h)
  exact .bind hfold fun complete hcomplete => .ok hcomplete

theorem applyBareTables_addsShort (m : Model) (schema : String) (settings : Settings)
    (docs : List (String × TableDocument)) :
    Ensures (m.applyBareTables schema settings docs) fun result =>
      m.AddsShort result.1 := by
  induction docs generalizing m with
  | nil => exact .ok (AddsShort.refl m)
  | cons head rest ih =>
    obtain ⟨name, doc⟩ := head
    unfold applyBareTables
    refine .bind (m.applyBareTable_addsShort schema _ settings) ?_
    rintro ⟨extended, path⟩ hextended
    refine .bind (ih extended) ?_
    rintro ⟨complete, later⟩ hcomplete
    exact .ok (hextended.trans hcomplete)

theorem applySchema_addsShort (m : Model) (doc : SchemaDocument) (settings : Settings) :
    Ensures (m.applySchema doc settings) m.AddsShort := by
  unfold applySchema
  refine .after fun name => .bind (fun _ h => h) fun u hname => .after fun _ => ?_
  refine .bind (addSchema_addsShort rfl (short_of_checkName hname)) fun added hadded => ?_
  refine .bind (added.applyBareTables_addsShort name settings doc.tables.entries) ?_
  rintro ⟨extended, foreignKeys⟩ hextended m' hm'
  exact (hadded.trans hextended).trans
    (extended.foldlM_applyForeignKey_addsShort foreignKeys m' hm')

/-- A document of a schema or table that is accepted with the settings leads from the
first model to the second. -/
inductive TakesDocument (s : Settings) (m m' : Model) : Prop
  | schema {doc : SchemaDocument} (h : m.applySchema doc s = .ok m')
  | table {schema : String} {doc : TableDocument} {path : TablePath}
      (h : m.applyTable schema doc s = .ok (m', path))

theorem TakesDocument.addsShort {s : Settings} {m m' : Model} (h : TakesDocument s m m') :
    m.AddsShort m' := by
  cases h with
  | schema h => exact m.applySchema_addsShort _ s m' h
  | table h => exact m.applyTable_addsShort _ _ s (m', _) h

/-- The document of a schema without tables. -/
def emptySchema (name : String) : SchemaDocument := ⟨some name, none, {}, {}, {}⟩

/-- Every name that a document adds is short.  All such names fit the limit of the
settings exactly if that limit is no less than the fixed one. -/
theorem document_names_short (s : Settings) :
    (∀ m m', TakesDocument s m m' → ∀ u, m'.Uses u → ¬m.Uses u →
      u.name.utf8ByteSize ≤ 63) ∧
    ((∀ m m', TakesDocument s m m' → ∀ u, m'.Uses u → ¬m.Uses u →
        u.name.utf8ByteSize ≤ s.naming.maxNameLength) ↔ 63 ≤ s.naming.maxNameLength) := by
  have hshort : ∀ m m', TakesDocument s m m' → ∀ u, m'.Uses u → ¬m.Uses u →
      u.name.utf8ByteSize ≤ 63 := fun m m' h u hu hnew => (h.addsShort u hu).resolve_left hnew
  refine ⟨hshort, fun h => ?_, fun hlimit m m' h u hu hnew =>
    (hshort m m' h u hu hnew).trans hlimit⟩
  -- The longest name that is accepted is one for every settings.
  let longest := String.ofList (List.replicate 63 'x')
  obtain ⟨m', hm', hused⟩ : ∃ m', (fresh "").applySchema (emptySchema longest) s = .ok m' ∧
      m'.Uses (.schema longest) := ⟨_, rfl, by simp [Uses, Schema.fresh]⟩
  have hfits := h (fresh "") m' (.schema hm') (.schema longest) hused (by simp [Uses, fresh])
  have hsize : longest.utf8ByteSize = 63 := by decide
  exact hsize ▸ hfits

/-- A schema whose name has eighteen bytes. -/
def laboratory : SchemaDocument := emptySchema "laboratory_samples"

theorem document_names_short_laboratory :
    ∃ m', TakesDocument (.limitedTo 63) (fresh "_ermrest") m' ∧
      m'.Uses (.schema "laboratory_samples") ∧
      ¬(fresh "_ermrest").Uses (.schema "laboratory_samples") ∧
      (NameUse.schema "laboratory_samples").name.utf8ByteSize ≤ 63 := by
  obtain ⟨m', hm', hused⟩ : ∃ m',
      (fresh "_ermrest").applySchema laboratory (.limitedTo 63) = .ok m' ∧
        m'.Uses (.schema "laboratory_samples") := ⟨_, rfl, by simp [Uses, Schema.fresh]⟩
  have hnew : ¬(fresh "_ermrest").Uses (.schema "laboratory_samples") := by
    simp [Uses, fresh]
  have htakes : TakesDocument (.limitedTo 63) (fresh "_ermrest") m' := .schema hm'
  exact ⟨m', htakes, hused, hnew,
    (document_names_short (.limitedTo 63)).2.2 (by decide) _ m' htakes _ hused hnew⟩

/-- Settings can limit names to sixteen bytes, and with them the schema is accepted. -/
theorem laboratory_exceeds :
    (∃ document, Toml.ofText? Settings.leastLimitText = some document ∧
        Settings.read document = .ok (.limitedTo 16)) ∧
      ∃ m', TakesDocument (.limitedTo 16) (fresh "_ermrest") m' ∧
        m'.Uses (.schema "laboratory_samples") ∧
        ¬(fresh "_ermrest").Uses (.schema "laboratory_samples") ∧
        16 < (NameUse.schema "laboratory_samples").name.utf8ByteSize := by
  obtain ⟨m', hm', hused⟩ : ∃ m',
      (fresh "_ermrest").applySchema laboratory (.limitedTo 16) = .ok m' ∧
        m'.Uses (.schema "laboratory_samples") := ⟨_, rfl, by simp [Uses, Schema.fresh]⟩
  exact ⟨Settings.leastLimitText_read, m', .schema hm', hused, by simp [Uses, fresh],
    by decide⟩

end Model

end GovernedCatalog
