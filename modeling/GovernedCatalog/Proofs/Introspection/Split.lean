import GovernedCatalog.Proofs.Introspection.Addressable

/-!
# The system schema apart from the visible ones

An introspection ends by taking the system schema out of the visible ones.  Its
tables are not looked up any longer, all other tables are where they were, and
the value map that may be added has neither keys nor references.
-/

namespace GovernedCatalog

namespace Model

variable {m : Model}

/-- The tables of a model, those of its system schema among them. -/
def allTables (m : Model) : List Table :=
  (m.schemas.values ++ [m.systemSchema]).flatMap fun s => s.tables.values

theorem mem_allTables {t : Table} :
    t ∈ m.allTables ↔
      (∃ path, m.table? path = some t) ∨
        ∃ name, m.systemSchema.tables.get? name = some t := by
  simp only [allTables, List.flatMap_append, List.mem_append, List.mem_flatMap,
    SortedMap.mem_values_iff, List.flatMap_singleton]
  refine or_congr ?_ Iff.rfl
  constructor
  · rintro ⟨s, ⟨schema, hs⟩, name, ht⟩
    exact ⟨⟨schema, name⟩, table?_eq_some_iff.2 ⟨s, hs, ht⟩⟩
  · rintro ⟨path, hpath⟩
    obtain ⟨s, hs, ht⟩ := table?_eq_some_iff.1 hpath
    exact ⟨s, ⟨path.schema, hs⟩, path.table, ht⟩

theorem table?_installSystemSchema (name : String) (path : TablePath) :
    (m.installSystemSchema name).2.table? path =
      if path.schema = name then none else m.table? path := by
  have herase : ∀ system : Schema, table?
      { m with schemas := m.schemas.erase name, systemSchema := system } path =
        if path.schema = name then none else m.table? path := by
    intro system
    unfold table?
    by_cases hschema : path.schema = name <;> simp [hschema]
  unfold installSystemSchema takeSchema
  cases m.schemas.get? name with
  | none => exact herase m.systemSchema
  | some s => exact herase s

theorem systemTable?_installSystemSchema (hsystem : m.systemSchema.tables = ∅)
    (name table : String) :
    (m.installSystemSchema name).2.systemSchema.tables.get? table =
      m.table? ⟨name, table⟩ := by
  unfold installSystemSchema takeSchema table?
  cases m.schemas.get? name with
  | none => simp [hsystem]
  | some s => rfl

theorem mem_allTables_installSystemSchema (hsystem : m.systemSchema.tables = ∅)
    (name : String) {t : Table} :
    t ∈ (m.installSystemSchema name).2.allTables ↔
      ∃ path, m.table? path = some t := by
  rw [mem_allTables]
  simp only [table?_installSystemSchema, systemTable?_installSystemSchema hsystem]
  constructor
  · rintro (⟨path, hpath⟩ | ⟨table, htable⟩)
    · by_cases hschema : path.schema = name
      · simp [hschema] at hpath
      · rw [if_neg hschema] at hpath
        exact ⟨path, hpath⟩
    · exact ⟨_, htable⟩
  · rintro ⟨⟨schema, table⟩, hpath⟩
    by_cases hschema : schema = name
    · exact Or.inr ⟨table, hschema ▸ hpath⟩
    · exact Or.inl ⟨⟨schema, table⟩, by rw [if_neg hschema, hpath]⟩

end Model

namespace Introspection

theorem addValueMap_eq_ok {m m' : Model} (h : addValueMap m = .ok m') :
    m.systemSchema.tables.get? ValueMap.tableName = none ∧
      m' = { m with
        systemSchema := { m.systemSchema with
          tables := m.systemSchema.tables.insert ValueMap.tableName
            (ValueMap.table m.systemSchema.name) } } := by
  obtain ⟨s, hs, rfl⟩ := map_eq_ok.1 h
  have hname : (ValueMap.table m.systemSchema.name).name =
      ValueMap.tableName := rfl
  unfold Schema.addTable at hs
  rw [hname] at hs
  by_cases hcontains : m.systemSchema.tables.contains ValueMap.tableName = true
  · rw [if_pos hcontains] at hs
    cases hs
  · rw [if_neg hcontains] at hs
    cases hs
    exact ⟨by simpa [SortedMap.contains] using hcontains, rfl⟩

/-- A model that was read and overlaid, the model of the whole introspection, and
how the one becomes the other. -/
structure Ends (settings : Settings) (read result : Model) : Prop where
  reading : Reading settings read
  split : result = (read.installSystemSchema settings.naming.systemSchema).2 ∨
    addValueMap (read.installSystemSchema settings.naming.systemSchema).2 =
      .ok result

/-- The steps of an introspection that succeeds. -/
theorem run_steps {reader : Reader} {settings : Settings} :
    Ensures (run reader settings) fun result =>
      ∃ base p, readStructure reader settings =
          .ok (base, result.report.droppedDefaults) ∧
        attachAll reader settings base = .ok p ∧
        result.report.skipped = p.skipped ∧
        Ends settings p.model result.model := by
  intro result h
  obtain ⟨⟨base, dropped⟩, hbase, h⟩ := bind_eq_ok.1 h
  obtain ⟨p, hp, h⟩ := bind_eq_ok.1 h
  have hreading := attachAll_ensures reader settings
    (readStructure_ensures reader settings _ hbase) p hp
  by_cases hstatements : (valueMapStatements settings
      (p.model.installSystemSchema settings.naming.systemSchema).2).isEmpty = true
  · rw [if_pos hstatements] at h
    cases h
    exact ⟨base, p, hbase, hp, rfl, hreading, Or.inl rfl⟩
  · rw [if_neg hstatements] at h
    obtain ⟨_, _, h⟩ := bind_eq_ok.1 h
    obtain ⟨m, hm, h⟩ := bind_eq_ok.1 h
    cases h
    exact ⟨base, p, hbase, hp, rfl, hreading, Or.inr hm⟩

/-- What holds of the structure that is read and is kept by overlays holds when
the system schema is put apart. -/
theorem run_ends {reader : Reader} {settings : Settings} {P : Model → Prop}
    (hread : Ensures (readStructure reader settings) fun r => P r.1)
    (hkept : Kept P) :
    Ensures (run reader settings) fun result =>
      ∃ read, Ends settings read result.model ∧ P read := by
  intro result h
  obtain ⟨base, p, hbase, hp, _, hends⟩ := run_steps result h
  exact ⟨p.model, hends,
    hkept.attachable.attachAll reader settings (hread _ hbase) p hp⟩

theorem run_ends_of_ok {reader : Reader} {settings : Settings}
    {result : Introspection} (h : run reader settings = .ok result) :
    ∃ read, Ends settings read result.model := by
  obtain ⟨_, p, _, _, _, hends⟩ := run_steps result h
  exact ⟨p.model, hends⟩

namespace Ends

variable {settings : Settings} {read result : Model}
  (h : Ends settings read result)

include h

/-- A visible table of the result was read, outside of the system schema. -/
theorem table?_eq (path : TablePath) :
    result.table? path =
      if path.schema = settings.naming.systemSchema then none
      else read.table? path := by
  have hsplit := Model.table?_installSystemSchema (m := read)
    settings.naming.systemSchema path
  rcases h.split with heq | hadd
  · rw [heq, hsplit]
  · rw [(addValueMap_eq_ok hadd).2]
    exact hsplit

theorem systemSchema_tables : read.systemSchema.tables = ∅ := by
  rw [h.reading.system]
  rfl

theorem systemSchema_name :
    (read.installSystemSchema settings.naming.systemSchema).2.systemSchema.name =
      settings.naming.systemSchema := by
  unfold Model.installSystemSchema Model.takeSchema
  cases hfound : read.schemas.get? settings.naming.systemSchema with
  | none =>
      change read.systemSchema.name = _
      rw [h.reading.system]
      rfl
  | some s => exact h.reading.closed.schema_name hfound

/-- No table gets lost. -/
theorem mem_allTables_of_read {path : TablePath} {t : Table}
    (ht : read.table? path = some t) : t ∈ result.allTables := by
  have hinstalled := (Model.mem_allTables_installSystemSchema
    h.systemSchema_tables settings.naming.systemSchema).2 ⟨path, ht⟩
  rcases h.split with heq | hadd
  · rw [heq]
    exact hinstalled
  · obtain ⟨hnone, heq⟩ := addValueMap_eq_ok hadd
    rw [Model.mem_allTables] at hinstalled ⊢
    rcases hinstalled with hvisible | ⟨name, hname⟩
    · rw [heq]
      exact Or.inl hvisible
    · have hne : name ≠ ValueMap.tableName := by
        rintro rfl
        rw [hnone] at hname
        cases hname
      refine Or.inr ⟨name, ?_⟩
      rw [heq, SortedMap.get?_insert, if_neg hne, hname]

/-- A table of the result was read, or it is a value map that was not there. -/
theorem read_or_new {t : Table} (ht : t ∈ result.allTables) :
    (∃ path, read.table? path = some t) ∨
      t = ValueMap.table settings.naming.systemSchema ∧
        read.table? t.path = none := by
  have hinstalled {t : Table} := @Model.mem_allTables_installSystemSchema read
    h.systemSchema_tables settings.naming.systemSchema t
  rcases h.split with heq | hadd
  · rw [heq] at ht
    exact Or.inl (hinstalled.1 ht)
  · obtain ⟨hnone, heq⟩ := addValueMap_eq_ok hadd
    rw [Model.mem_allTables, heq] at ht
    rcases ht with hvisible | ⟨table, htable⟩
    · exact Or.inl (hinstalled.1 (Model.mem_allTables.2 (Or.inl hvisible)))
    · have hlookup := Model.systemTable?_installSystemSchema
        h.systemSchema_tables settings.naming.systemSchema
      rw [SortedMap.get?_insert] at htable
      by_cases hmap : table = ValueMap.tableName
      · rw [if_pos hmap, Option.some.injEq, h.systemSchema_name] at htable
        refine Or.inr ⟨htable.symm, ?_⟩
        rw [← htable]
        exact (hlookup ValueMap.tableName).symm.trans hnone
      · rw [if_neg hmap, hlookup] at htable
        exact Or.inl ⟨_, htable⟩

/-- A reference was read if a table of the result has it. -/
theorem isSome_reference?_iff (id : ReferenceId) :
    (read.reference? id).isSome = true ↔
      ∃ source ∈ result.allTables, ∃ r ∈ source.references, r.id = id := by
  have hnamed := h.reading.closed.named
  rw [Option.isSome_iff_exists]
  constructor
  · rintro ⟨r, hr⟩
    obtain ⟨source, hsource, hget⟩ := Model.reference?_eq_some_iff.1 hr
    obtain ⟨_, hmapping⟩ := hnamed.reference hr
    refine ⟨source, h.mem_allTables_of_read hsource, r, ?_,
      hnamed.reference_id hr⟩
    rw [(hnamed.table hsource).mem_references, hmapping]
    exact hget
  · rintro ⟨source, hsource, r, hr, rfl⟩
    rcases h.read_or_new hsource with ⟨path, hpath⟩ | ⟨rfl, _⟩
    · have hget := (hnamed.table hpath).mem_references.1 hr
      have hid : r.source = path := ((hnamed.table hpath).reference hget).1
      rw [← hid] at hpath
      exact ⟨r, Model.reference?_eq_some_iff.2 ⟨source, hpath, hget⟩⟩
    · cases hr

end Ends

end Introspection

end GovernedCatalog
