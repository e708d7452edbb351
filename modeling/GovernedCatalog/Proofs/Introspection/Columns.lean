import GovernedCatalog.Proofs.ColumnType.Constant
import GovernedCatalog.Proofs.Introspection.Split

/-!
# Introspected columns

Columns keep the content they are read with: a flat type, and a default that was
read for the type.  So a column's definition can be given unless its default is
a misfit.
-/

namespace GovernedCatalog

/-! ## Contents of columns -/

/-- The content of every column has the property. -/
def Table.Stores (P : ColumnContent → Prop) (t : Table) : Prop :=
  ∀ c ∈ t.columns, P c.content

/-- The content of every column of a visible table has the property. -/
def Model.Stores (P : ColumnContent → Prop) (m : Model) : Prop :=
  m.schemas.All fun _ s => s.tables.All fun _ t => t.Stores P

variable {P : ColumnContent → Prop}

theorem Table.Stores.of_columns {t t' : Table} (ht : t.Stores P)
    (h : t'.columns = t.columns) : t'.Stores P := by
  unfold Stores
  rw [h]
  exact ht

namespace Model.Stores

theorem fresh (systemSchema : String) : (Model.fresh systemSchema).Stores P :=
  SortedMap.all_empty

variable {m : Model} (hm : m.Stores P)

include hm

theorem of_table? {path : TablePath} {t : Table} (ht : m.table? path = some t) :
    t.Stores P := by
  obtain ⟨s, hs, hget⟩ := table?_eq_some_iff.1 ht
  exact hm _ s hs _ t hget

theorem ensureSchema (name : String) : (m.ensureSchema name).Stores P :=
  hm.getOrInsert SortedMap.all_empty

theorem updateTable (path : TablePath) {f : Table → Table}
    (hf : ∀ t, t.Stores P → (f t).Stores P) : (m.updateTable path f).Stores P :=
  hm.modify fun _ hs => hs.modify hf

theorem updateTable_of_same (path : TablePath) {f : Table → Table}
    (hf : ∀ t, (f t).columns = t.columns) : (m.updateTable path f).Stores P :=
  hm.updateTable path fun t ht => ht.of_columns (hf t)

theorem updateColumn (path : TablePath) (name : String) {f : Column → Column}
    (hf : ∀ c, (f c).content = c.content) :
    (m.updateColumn path name f).Stores P := by
  refine hm.updateTable path fun t ht c hc => ?_
  obtain ⟨d, hd, rfl⟩ := List.mem_map.1 hc
  by_cases hname : (d.name == name) = true
  · rw [if_pos hname, hf]
    exact ht d hd
  · rw [if_neg hname]
    exact ht d hd

theorem addColumn (path : TablePath) {c : Column} (hc : P c.content) :
    Ensures (m.addColumn path c) (Model.Stores P) := by
  intro m' h
  obtain ⟨t, t', ht, ht', rfl⟩ := addColumn_eq_ok h
  obtain ⟨_, rfl⟩ := Table.addColumn_eq_ok ht'
  refine hm.updateTable path fun _ _ d hd => ?_
  rcases List.mem_cons.1 ((Table.insertColumn_perm c t.columns).mem_iff.1 hd)
    with rfl | hd
  · exact hc
  · exact hm.of_table? ht d hd

end Model.Stores

namespace Introspection

theorem stores_enterable {settings : Settings}
    (hread : ∀ {row name position read},
      readColumn settings row name position = .ok read → P read.1.content) :
    Enterable settings (Model.Stores P) where
  addSchema hm row := (hm.ensureSchema row.name).modify fun _ hs => hs
  ensureTable {m} hm path kind := by
    unfold ensureTable
    refine .after fun kind => .ok ?_
    exact (hm.ensureSchema path.schema).modify fun _ hs =>
      hs.getOrInsert fun c hc => by cases hc
  addColumn hm row name position read h := hm.addColumn row.table (hread h)
  addKey {m} hm path columns constraint? := by
    unfold Model.addKey
    refine .after fun _ => .after fun _ => .ok ?_
    exact hm.updateTable_of_same path fun _ => rfl
  addReference hm source mapping constraint? onDelete onUpdate := by
    intro m' h
    obtain ⟨-, -, rfl⟩ := Model.addReference_eq_ok h
    refine Model.Stores.updateTable_of_same ?_ _ fun _ => rfl
    exact hm.updateTable_of_same source fun _ => rfl
  commentTable hm path comment := hm.updateTable_of_same path fun _ => rfl
  commentKey hm path columns comment := hm.updateTable_of_same path fun _ => rfl
  commentReference hm path mapping comment :=
    hm.updateTable_of_same path fun _ => rfl

theorem stores_kept : Kept (Model.Stores P) where
  setAnnotations {m} a annotations hm := by
    cases a with
    | catalog => exact hm
    | schema name => exact hm.modify fun _ hs => hs
    | column path name => exact hm.updateColumn path name fun _ => rfl
    | foreignKey path columns => exact hm
    | table path => exact hm.updateTable_of_same path fun _ => rfl
    | key path columns => exact hm.updateTable_of_same path fun _ => rfl
    | reference id => exact hm.updateTable_of_same id.source fun _ => rfl
  setAcls a acls hm := by
    cases a with
    | catalog => exact hm
    | schema name => exact hm.modify fun _ hs => hs
    | column path name => exact hm.updateColumn path name fun _ => rfl
    | table path => exact hm.updateTable_of_same path fun _ => rfl
    | reference id => exact hm.updateTable_of_same id.source fun _ => rfl
    | _ => exact hm
  setBindings a bindings hm := by
    cases a with
    | column path name => exact hm.updateColumn path name fun _ => rfl
    | table path => exact hm.updateTable_of_same path fun _ => rfl
    | reference id => exact hm.updateTable_of_same id.source fun _ => rfl
    | _ => exact hm

/-! ## What columns are read with -/

/-- A stored column's content, with a default that was read for its type. -/
inductive Provided : ColumnContent → Prop where
  | stored {position : Nat} {type : ColumnType} {default? : Option Json}
      (hdefault : ∀ v, default? = some v → DefaultOf type v) :
      Provided (.stored position type default?)

theorem columnType_flat (settings : Settings) (type : String)
    (elementType? domainBase? default? : Option String) :
    Ensures (columnType settings type elementType? domainBase? default?)
      ColumnType.Flat := by
  intro t h
  unfold columnType at h
  split at h
  · split at h
    · cases h
    · obtain ⟨name, _, rfl⟩ := map_eq_ok.1 h
      exact .array name
  split at h
  · obtain ⟨name, _, rfl⟩ := map_eq_ok.1 h
    exact .domain type name
  · obtain ⟨name, _, rfl⟩ := map_eq_ok.1 h
    exact .scalar name

theorem readColumn_provided (settings : Settings) (row : Dump.ColumnsRow)
    (name : String) (position : Nat) :
    Ensures (readColumn settings row name position) fun read =>
      Provided read.1.content := by
  unfold readColumn
  cases row.types[position]? with
  | none => exact .error
  | some spelling =>
      refine .bind (columnType_flat settings spelling _ _ _) fun type htype => ?_
      cases hdefault : type.default? (textAt row.defaults position) with
      | error e => exact .ok (.stored nofun)
      | ok value? =>
          refine .ok (.stored fun v hv => ?_)
          replace hv : value? = some v := hv
          subst hv
          cases hraw : textAt row.defaults position with
          | none =>
              rw [hraw] at hdefault
              cases hdefault
          | some raw =>
              rw [hraw] at hdefault
              exact htype.defaultOf hdefault

theorem valueMap_provided (systemSchema : String) :
    (ValueMap.table systemSchema).Stores Provided := by
  intro c hc
  obtain ⟨entry, _, rfl⟩ := List.mem_map.1 hc
  exact .stored nofun

/-- What columns are read with they keep. -/
theorem run_stores {settings : Settings}
    (hread : ∀ {row name position read},
      readColumn settings row name position = .ok read → P read.1.content)
    (hmap : ∀ systemSchema, (ValueMap.table systemSchema).Stores P)
    (reader : Reader) :
    Ensures (run reader settings) fun result =>
      ∀ t ∈ result.model.allTables, t.Stores P := by
  intro result h t ht
  have hstructure := (stores_enterable hread).readStructure (.fresh _) reader
  obtain ⟨read, hends, hstores⟩ := run_ends hstructure stores_kept result h
  rcases hends.read_or_new ht with ⟨path, hpath⟩ | ⟨rfl, _⟩
  · exact hstores.of_table? hpath
  · exact hmap _

theorem run_provided (reader : Reader) (settings : Settings) :
    Ensures (run reader settings) fun result =>
      ∀ t ∈ result.model.allTables, t.Stores Provided :=
  run_stores (readColumn_provided settings _ _ _ _) valueMap_provided reader

/-- The column's type is flat. -/
inductive HasFlatType : ColumnContent → Prop where
  | stored {position : Nat} {type : ColumnType} {default? : Option Json}
      (htype : type.Flat) : HasFlatType (.stored position type default?)

theorem readColumn_flat (settings : Settings) (row : Dump.ColumnsRow)
    (name : String) (position : Nat) :
    Ensures (readColumn settings row name position) fun read =>
      HasFlatType read.1.content := by
  unfold readColumn
  cases row.types[position]? with
  | none => exact .error
  | some spelling =>
      refine .bind (columnType_flat settings spelling _ _ _) fun type htype => ?_
      cases type.default? (textAt row.defaults position) with
      | error e => exact .ok (.stored htype)
      | ok value? => exact .ok (.stored htype)

theorem valueMap_flat (systemSchema : String) :
    (ValueMap.table systemSchema).Stores HasFlatType := by
  intro c hc
  obtain ⟨entry, _, rfl⟩ := List.mem_map.1 hc
  exact .stored (.scalar "text")

theorem run_flat (reader : Reader) (settings : Settings) :
    Ensures (run reader settings) fun result =>
      ∀ t ∈ result.model.allTables, t.Stores HasFlatType :=
  run_stores (readColumn_flat settings _ _ _ _) valueMap_flat reader

end Introspection

/-! ## Definitions of columns and tables -/

/-- The column has a default that its definition needs but cannot write. -/
def Column.HasMisfit (c : Column) : Prop :=
  ∃ v, c.default? = some v ∧ v.isNull = false ∧ Misfit c.type v

section Definitions

open Introspection

variable {c : Column} {t : Table}

theorem Column.literal_ok_iff (hc : Provided c.content) {v : Json}
    (hv : c.default? = some v) :
    (∃ sql, c.type.literal v = .ok sql) ↔ ¬ Misfit c.type v := by
  obtain ⟨name, table, content⟩ := c
  cases hc with
  | stored hdefault => exact (hdefault v hv).literal_ok_iff

theorem Column.isSearch_of_provided (hc : Provided c.content) :
    c.isSearch = false := by
  obtain ⟨name, table, content⟩ := c
  cases hc with
  | stored _ => rfl

/-- The definition of a stored column writes the column's default unless it is
null. -/
theorem Column.definition_ok_iff_literal (hc : c.isSearch = false) :
    (∃ sql, c.definition = .ok sql) ↔
      ∀ v, c.default? = some v → v.isNull = false →
        ∃ sql, c.type.literal v = .ok sql := by
  obtain ⟨name, table, content⟩ := c
  cases content with
  | search sources => cases hc
  | stored position type default? =>
      cases default? with
      | none => exact iff_of_true ⟨_, rfl⟩ nofun
      | some v =>
          simp only [definition, Column.default?, Column.type, Option.some.injEq,
            forall_eq']
          cases hnull : v.isNull with
          | true =>
              have hnone : (some v).filter (fun v => !v.isNull) = none := by
                simp [Option.filter, hnull]
              rw [hnone]
              exact iff_of_true ⟨_, rfl⟩ nofun
          | false =>
              cases hliteral : type.literal v with
              | ok constant => simp [Option.filter, hnull, hliteral, Except.map]
              | error e => simp [Option.filter, hnull, hliteral, Except.map]

theorem Column.definition_ok_iff (hc : Provided c.content) :
    (∃ sql, c.definition = .ok sql) ↔ ¬ c.HasMisfit := by
  rw [definition_ok_iff_literal (isSearch_of_provided hc)]
  constructor
  · rintro hwritten ⟨v, hv, hnull, hmisfit⟩
    exact (literal_ok_iff hc hv).1 (hwritten v hv hnull) hmisfit
  · intro hfits v hv hnull
    exact (literal_ok_iff hc hv).2 fun hmisfit => hfits ⟨v, hv, hnull, hmisfit⟩

theorem Table.createStatement_ok_iff (ht : t.Stores Provided) :
    (∃ sql, t.createStatement = .ok sql) ↔ ∀ c ∈ t.columns, ¬ c.HasMisfit := by
  have hstored : t.columns.filter (fun c => !c.isSearch) = t.columns := by
    refine List.filter_eq_self.2 fun c hc => ?_
    simp [Column.isSearch_of_provided (ht c hc)]
  have hcolumns : (∃ sql, t.createStatement = .ok sql) ↔
      ∃ columns, t.columns.mapM Column.definition = .ok columns := by
    unfold createStatement
    rw [hstored]
    constructor
    · rintro ⟨sql, h⟩
      obtain ⟨columns, hcolumns, _⟩ := bind_eq_ok.1 h
      exact ⟨columns, hcolumns⟩
    · rintro ⟨columns, hcolumns⟩
      exact ⟨_, bind_eq_ok.2 ⟨columns, hcolumns, rfl⟩⟩
  rw [hcolumns, mapM_ok_iff]
  exact forall₂_congr fun c hc => Column.definition_ok_iff (ht c hc)

end Definitions

namespace Introspection

/-- The defaults of introspected columns are written as constants of their types,
and so are the definitions of columns and tables, unless a default is a misfit.
No default of a scalar type is one, if the type is not serial. -/
theorem run_defaults_written {reader : Reader} {settings : Settings}
    {result : Introspection} (h : run reader settings = .ok result) {t : Table}
    (ht : t ∈ result.model.allTables) :
    (∀ c ∈ t.columns, ∀ v, c.default? = some v →
        ((∃ sql, c.type.literal v = .ok sql) ↔ ¬ Misfit c.type v)) ∧
      (∀ c ∈ t.columns, (∃ sql, c.definition = .ok sql) ↔ ¬ c.HasMisfit) ∧
      ((∃ sql, t.createStatement = .ok sql) ↔
        ∀ c ∈ t.columns, ¬ c.HasMisfit) ∧
      ∀ c ∈ t.columns, ∀ name, c.type = .scalar name → name ∉ serialNames →
        ∀ v, c.default? = some v → ∃ sql, c.type.literal v = .ok sql := by
  have hprovided := run_provided reader settings result h t ht
  have hliteral : ∀ c ∈ t.columns, ∀ v, c.default? = some v →
      ((∃ sql, c.type.literal v = .ok sql) ↔ ¬ Misfit c.type v) :=
    fun c hc v hv => Column.literal_ok_iff (hprovided c hc) hv
  refine ⟨hliteral, fun c hc => Column.definition_ok_iff (hprovided c hc),
    Table.createStatement_ok_iff hprovided, ?_⟩
  intro c hc name hname hserial v hv
  refine (hliteral c hc v hv).2 fun hmisfit => ?_
  rw [hname, misfit_scalar_iff] at hmisfit
  exact hserial hmisfit.1

/-- Users with a number, and with settings in a domain over documents. -/
def users : Dump where
  schemas := [⟨"shop", none⟩]
  columns :=
    [{ table := ⟨"shop", "users"⟩
       kind := "r"
       comment := none
       names := ["id", "prefs"]
       defaults := [some "7", some "'{}'::jsonb"]
       types := ["int4", "settings"]
       elementTypes := []
       domainBases := [none, some "jsonb"]
       comments := []
       notNulls := [] }]
  tables := []
  uniques := []
  foreignKeys := []
  annotations := []
  acls := []
  bindings := []

/-- What is read of a column of the users, with whether its default is
written. -/
theorem users_read {name : String} {type : ColumnType} {written : Bool}
    (h : ((run users.reader .standard).toOption.bind fun result =>
      (result.model.table? ⟨"shop", "users"⟩).bind fun t =>
        (t.column? name).bind fun c => c.default?.map fun v =>
          (c.type, v.isNull, (c.type.literal v).toOption.isSome)) =
            some (type, false, written)) :
    ∃ result t c v, run users.reader .standard = .ok result ∧
      t ∈ result.model.allTables ∧ c ∈ t.columns ∧ c.type = type ∧
      c.default? = some v ∧ v.isNull = false ∧
      ((∃ sql, c.type.literal v = .ok sql) ↔ written = true) := by
  simp only [Option.bind_eq_some_iff, Option.map_eq_some_iff] at h
  obtain ⟨result, hresult, t, ht, c, hc, v, hv, hread⟩ := h
  obtain ⟨rfl, hnull, rfl⟩ := by simpa using hread
  refine ⟨result, t, c, v, toOption_eq_some_iff.1 hresult,
    Model.mem_allTables.2 (.inl ⟨_, ht⟩), (Table.column?_eq_some hc).1, rfl, hv,
    hnull, ?_⟩
  simp [Option.isSome_iff_exists, toOption_eq_some_iff]

/-- The default of the settings is kept, but cannot be written. -/
theorem users_default_unwritten :
    ∃ result t c v, run users.reader .standard = .ok result ∧
      t ∈ result.model.allTables ∧ c ∈ t.columns ∧ c.default? = some v ∧
      (¬ ∃ sql, c.type.literal v = .ok sql) ∧
      (¬ ∃ sql, c.definition = .ok sql) ∧
      ¬ ∃ sql, t.createStatement = .ok sql := by
  obtain ⟨result, t, c, v, hrun, ht, hc, _, hv, hnull, hliteral⟩ :=
    @users_read "prefs" (.domain "settings" (.scalar "jsonb")) false
      (by decide +kernel)
  have hprovided := run_provided users.reader .standard result hrun t ht
  have hunwritten : ¬ ∃ sql, c.type.literal v = .ok sql := by simp [hliteral]
  have hmisfit : c.HasMisfit := by
    refine ⟨v, hv, hnull, ?_⟩
    by_contra hfits
    exact hunwritten ((Column.literal_ok_iff (hprovided c hc) hv).2 hfits)
  refine ⟨result, t, c, v, hrun, ht, hc, hv, hunwritten, ?_, ?_⟩
  · rw [Column.definition_ok_iff (hprovided c hc)]
    exact not_not_intro hmisfit
  · rw [Table.createStatement_ok_iff hprovided]
    exact fun hfits => hfits c hc hmisfit

theorem run_defaults_written_users :
    ∃ result t c v, run users.reader .standard = .ok result ∧
      t ∈ result.model.allTables ∧ c ∈ t.columns ∧ c.type = .scalar "int4" ∧
      c.default? = some v ∧ ¬ Misfit c.type v ∧
      ∃ sql, c.type.literal v = .ok sql := by
  obtain ⟨result, t, c, v, hrun, ht, hc, htype, hv, _, _⟩ :=
    @users_read "id" (.scalar "int4") true (by decide +kernel)
  obtain ⟨hliteral, _, _, hscalar⟩ := run_defaults_written hrun ht
  have hwritten := hscalar c hc "int4" htype (by decide) v hv
  exact ⟨result, t, c, v, hrun, ht, hc, htype, hv, (hliteral c hc v hv).1 hwritten,
    hwritten⟩

end Introspection

end GovernedCatalog
