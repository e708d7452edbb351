import GovernedCatalog.Proofs.Introspection.Grouping
import GovernedCatalog.Proofs.Introspection.Policy
import GovernedCatalog.Proofs.Introspection.StoredRow

/-!
# Introspected overlays are the stored ones

Every entity of an introspected model, those of the system schema among them, holds
what the last stored row for it says, and nothing else.  A row either has a place
in the model or is counted as left out.
-/

/-!
## Loading the stored rows

The stored rows of a dump are loaded one after the other.  After some of them,
every place holds the content of the last row for it, and the rows without a place
have been counted.
-/

namespace GovernedCatalog

open Introspection

namespace Dump

variable (d : Dump) (settings : Settings)

/-- The rows of a table of the system schema, if the dump lists the table. -/
def listedRows (table : String) (rows : List α) : List α :=
  if d.hasTable ⟨settings.naming.systemSchema, table⟩ then rows else []

/-- What is stored for a kind of entity, in the order in which it is read. -/
def storedFor (kind : StorageKind) : List StoredRow :=
  let annotations := d.listedRows settings kind.annotationTable
    (d.annotations.rows kind)
  let acls := d.listedRows settings kind.aclTable (d.acls.rows kind)
  let bindings := d.listedRows settings kind.bindingTable (d.bindings.rows kind)
  annotations.map ( StoredRow.annotation kind) ++
    if settings.introspection.loadPolicy then
      (if kind.hasAcls then acls.map (.acl kind) else []) ++
        if kind.hasBindings then bindings.map (.binding kind) else []
    else []

/-- All that is stored, in the order in which it is read. -/
def storedRows : List StoredRow := StorageKind.all.flatMap (d.storedFor settings)

theorem storedRows_eq (table : String) (rows : List α) :
    Introspection.storedRows d.reader settings.naming.systemSchema table
      (.ok rows) = .ok (d.listedRows settings table rows) := by
  unfold Introspection.storedRows listedRows
  change (if d.hasTable _ = true then _ else _) = _
  by_cases h : d.hasTable ⟨settings.naming.systemSchema, table⟩ = true
  · rw [if_pos h, if_pos h]
  · rw [if_neg h, if_neg h]
    rfl

theorem attachKind_eq (p : Progress) (kind : StorageKind) :
    attachKind d.reader settings p kind =
      .ok ((d.storedFor settings kind).foldl StoredRow.load p) := by
  have hannotate : ∀ p (rows : List AnnotationRow),
      (rows.map ( StoredRow.annotation kind)).foldl StoredRow.load p =
        rows.foldl (annotate kind) p := fun p rows => List.foldl_map ..
  have hacl : ∀ p (rows : List AclRow),
      (rows.map (StoredRow.acl kind)).foldl StoredRow.load p =
        rows.foldl (attachAcl kind) p := fun p rows => List.foldl_map ..
  have hbinding : ∀ p (rows : List BindingRow),
      (rows.map (StoredRow.binding kind)).foldl StoredRow.load p =
        rows.foldl (attachBinding kind) p := fun p rows => List.foldl_map ..
  have hannotations : d.reader.annotations kind = .ok (d.annotations.rows kind) :=
    rfl
  have hacls : d.reader.acls kind = .ok (d.acls.rows kind) := rfl
  have hbindings : d.reader.bindings kind = .ok (d.bindings.rows kind) := rfl
  unfold attachKind storedFor
  simp only [hannotations, hacls, hbindings, storedRows_eq, bind, Except.bind,
    List.foldl_append, hannotate]
  cases settings.introspection.loadPolicy with
  | false => rfl
  | true =>
      cases kind.hasAcls <;> cases kind.hasBindings <;>
        simp [hacl, hbinding, pure, Except.pure]

theorem attachAll_eq (m : Model) :
    attachAll d.reader settings m =
      .ok ((d.storedRows settings).foldl StoredRow.load ⟨m, ⟨0, 0, 0⟩⟩) := by
  unfold attachAll storedRows
  generalize (⟨m, ⟨0, 0, 0⟩⟩ : Progress) = p
  induction StorageKind.all generalizing p with
  | nil => rfl
  | cons kind rest ih =>
      rw [List.foldlM_cons, attachKind_eq, List.flatMap_cons, List.foldl_append]
      exact ih _

end Dump

namespace Introspection

open Dump

/-- How many rows of a layer have no place in a model. -/
def unplaced (m : Model) (rows : List StoredRow) (layer : Overlay.Layer) : Nat :=
  rows.countP fun row => row.layer = layer && (row.place? m).isNone

/-- The last of some rows with a place in a model. -/
def lastAt? (m : Model) (rows : List StoredRow) (a : Address)
    (key : Overlay.Key) : Option StoredRow :=
  (rows.filter fun row => row.place? m = some (a, key)).getLast?

theorem lastAt?_concat (m : Model) (rows : List StoredRow) (row : StoredRow)
    (a : Address) (key : Overlay.Key) :
    lastAt? m (rows ++ [row]) a key =
      if row.place? m = some (a, key) then some row else lastAt? m rows a key := by
  unfold lastAt?
  by_cases h : row.place? m = some (a, key) <;> simp [List.filter_append, h]

theorem unplaced_concat (m : Model) (rows : List StoredRow) (row : StoredRow)
    (layer : Overlay.Layer) :
    unplaced m (rows ++ [row]) layer =
      unplaced m rows layer +
        if row.layer = layer ∧ row.place? m = none then 1 else 0 := by
  unfold unplaced
  rw [List.countP_append, List.countP_singleton]
  simp

/-- What there is after rows have been loaded into a model that carried
nothing. -/
structure Laid (base : Model) (rows : List StoredRow) (p : Progress) : Prop where
  same : ∀ a, (p.model.overlayAt? a).isSome = (base.overlayAt? a).isSome
  held : ∀ a key,
    p.model.heldAt? a key = (lastAt? base rows a key).map StoredRow.content
  skipped : p.skipped =
    ⟨unplaced base rows Overlay.Layer.annotation, unplaced base rows .acl,
      unplaced base rows .binding⟩

namespace Laid

variable {base : Model} {rows : List StoredRow} {p : Progress}

theorem of_bare (hbare : ∀ a key, base.heldAt? a key = none) :
    Laid base [] ⟨base, ⟨0, 0, 0⟩⟩ where
  same _ := rfl
  held a key := hbare a key
  skipped := rfl

theorem load (h : Laid base rows p) (row : StoredRow) :
    Laid base (rows ++ [row]) (StoredRow.load p row) := by
  have hplace := place?_of_same h.same row
  cases hbase : row.place? base with
  | none =>
      have hload : StoredRow.load p row =
          { p with skipped := row.skip p.skipped } := by
        unfold StoredRow.load
        cases hattach : row.attach? p.model with
        | none => rfl
        | some m =>
            obtain ⟨a, key, hsome⟩ := place?_of_attach? hattach
            rw [hplace, hbase] at hsome
            cases hsome
      rw [hload]
      refine ⟨h.same, fun a key => ?_, ?_⟩
      · rw [lastAt?_concat, hbase, if_neg (by simp)]
        exact h.held a key
      · simp only [h.skipped, unplaced_concat, hbase]
        cases row <;> simp [StoredRow.skip, StoredRow.layer]
  | some place =>
      obtain ⟨a, key⟩ := place
      rw [hbase] at hplace
      obtain ⟨m, hattach, hwrites⟩ := attach?_of_place hplace
      have hload : StoredRow.load p row = { p with model := m } := by
        unfold StoredRow.load
        rw [hattach]
      rw [hload]
      refine ⟨fun a' => (hwrites.same a').trans (h.same a'), fun a' key' => ?_, ?_⟩
      · rw [hwrites.held, lastAt?_concat]
        by_cases heq : a' = a ∧ key' = key
        · obtain ⟨rfl, rfl⟩ := heq
          rw [if_pos ⟨rfl, rfl⟩, if_pos hbase]
          rfl
        · have hne : row.place? base ≠ some (a', key') := by
            rw [hbase]
            rintro h
            cases h
            exact heq ⟨rfl, rfl⟩
          rw [if_neg heq, if_neg hne]
          exact h.held a' key'
      · simp [h.skipped, unplaced_concat, hbase]

theorem loadAll (h : Laid base rows p) (more : List StoredRow) :
    Laid base (rows ++ more) (more.foldl StoredRow.load p) := by
  induction more generalizing rows p with
  | nil =>
      rw [List.append_nil]
      exact h
  | cons row rest ih =>
      rw [List.append_cons]
      exact ih (h.load row)

end Laid

end Introspection

end GovernedCatalog

/-! ## What the entities hold -/

namespace GovernedCatalog

namespace Table

variable {t : Table} {a : Address} {path : TablePath}

/-- A table in which nothing carries anything. -/
theorem Carries.eq_empty (ht : t.Carries .bare) {o : Overlay}
    (ho : t.overlayAt? a = some o) : o = ∅ := by
  cases hkind : a.storageKind? with
  | some kind => exact ht.of_overlayAt? hkind ho
  | none =>
      cases a with
      | foreignKey path columns =>
          obtain ⟨_, _, rfl⟩ := Option.map_eq_some_iff.1 ho
          rfl
      | _ => cases hkind

end Table

namespace Model

variable {m : Model} {a : Address}

/-- A model in which nothing carries anything. -/
theorem Carries.eq_empty (hm : m.Carries .bare) {o : Overlay}
    (ho : m.overlayAt? a = some o) : o = ∅ := by
  rcases a.outside_or_in_table with rfl | ⟨name, rfl⟩ | ⟨path, hpath⟩
  · exact hm.of_overlayAt? rfl ho
  · exact hm.of_overlayAt? rfl ho
  · rw [overlayAt?_in_table hpath] at ho
    obtain ⟨t, ht, ho⟩ := Option.bind_eq_some_iff.1 ho
    exact (hm.of_table? ht).eq_empty ho

theorem Carries.heldAt?_eq_none (hm : m.Carries .bare)
    (key : Overlay.Key) : m.heldAt? a key = none := by
  unfold heldAt?
  cases ho : m.overlayAt? a with
  | none => rfl
  | some o =>
      rw [hm.eq_empty ho]
      exact Overlay.get?_empty key

end Model

namespace Introspection

open Dump

/-- A model with the schemas of another and with what they carry, the system
schema taken out of the visible ones. -/
structure Outlined (system : String) (read m : Model) : Prop where
  schemas : m.schemas = read.schemas.erase system
  name : m.systemSchema.name = system
  system : m.systemSchema.carried =
    (read.schemas.get? system).elim ∅ Schema.carried
  own : m.carried = read.carried

namespace Ends

variable {settings : Settings} {read result : Model}
  (h : Ends settings read result)

include h

theorem addressable : result.Addressable := by
  have hinstalled := h.reading.installSystemSchema
  rcases h.split with rfl | hadd
  · exact hinstalled
  · exact addValueMap_ensures hinstalled result hadd

/-- A table of the result was read, or it is a value map that was not there. -/
theorem table?_of_tableOf? {path : TablePath} {t : Table}
    (ht : result.tableOf? path = some t) :
    read.table? path = some t ∨
      t = ValueMap.table settings.naming.systemSchema ∧
        read.table? path = none := by
  have hpath := (h.addressable.tableOf?_named ht).path_eq
  have hmem : t ∈ result.allTables := by
    rw [Model.mem_allTables]
    obtain ⟨s, hs, hget⟩ := Option.bind_eq_some_iff.1 ht
    unfold Model.schemaOf? at hs
    by_cases hname : path.schema = result.systemSchema.name
    · rw [if_pos hname, Option.some.injEq] at hs
      exact Or.inr ⟨path.table, hs ▸ hget⟩
    · rw [if_neg hname] at hs
      exact Or.inl ⟨path, Model.table?_eq_some_iff.2 ⟨s, hs, hget⟩⟩
  rcases h.read_or_new hmem with ⟨path', hread⟩ | ⟨hmap, hnone⟩
  · have hpath' := (h.reading.closed.table hread).path_eq
    rw [← hpath, hpath']
    exact Or.inl hread
  · rw [hpath] at hnone
    exact Or.inr ⟨hmap, hnone⟩

/-- All tables that were read are found in the result. -/
theorem tableOf?_of_table? {path : TablePath} {t : Table}
    (ht : read.table? path = some t) : result.tableOf? path = some t := by
  have hpath := (h.reading.closed.table ht).path_eq
  rcases Model.mem_allTables.1 (h.mem_allTables_of_read ht) with
    ⟨path', hvisible⟩ | ⟨name, hsystem⟩
  · have hfound := h.addressable.tableOf?_of_table? hvisible
    have hpath' := (h.addressable.tableOf?_named hfound).path_eq
    rw [← hpath, hpath']
    exact hfound
  · have hpath' := (h.addressable.system_table hsystem).path_eq
    rw [← hpath, hpath']
    exact Option.bind_eq_some_iff.2 ⟨_, if_pos rfl, hsystem⟩

theorem outlined : Outlined settings.naming.systemSchema read result := by
  have hinstalled : Outlined settings.naming.systemSchema read
      (read.installSystemSchema settings.naming.systemSchema).2 := by
    have hname := h.systemSchema_name
    unfold Model.installSystemSchema Model.takeSchema at hname ⊢
    cases hfound : read.schemas.get? settings.naming.systemSchema with
    | none =>
        rw [hfound] at hname
        refine ⟨rfl, hname, ?_, rfl⟩
        rw [hfound, h.reading.system]
        rfl
    | some s =>
        rw [hfound] at hname
        refine ⟨rfl, hname, ?_, rfl⟩
        rw [hfound]
        rfl
  rcases h.split with rfl | hadd
  · exact hinstalled
  · rw [(addValueMap_eq_ok hadd).2]
    exact ⟨hinstalled.schemas, hinstalled.name, hinstalled.system, hinstalled.own⟩

/-- A schema of the result carries what was read, the system schema nothing if it
was not there. -/
theorem schemaOf?_carried {name : String} {s : Schema}
    (hs : result.schemaOf? name = some s) :
    (read.schemas.get? name).map Schema.carried = some s.carried ∨
      read.schemas.get? name = none ∧ s.carried = ∅ := by
  have houtlined := h.outlined
  unfold Model.schemaOf? at hs
  rw [houtlined.name, houtlined.schemas, SortedMap.get?_erase] at hs
  by_cases heq : name = settings.naming.systemSchema
  · subst heq
    rw [if_pos rfl, Option.some.injEq] at hs
    subst hs
    rw [houtlined.system]
    cases read.schemas.get? settings.naming.systemSchema with
    | none => exact Or.inr ⟨rfl, rfl⟩
    | some s => exact Or.inl rfl
  · rw [if_neg heq, if_neg heq] at hs
    rw [hs]
    exact Or.inl rfl

theorem exists_schemaOf? {name : String} {s : Schema}
    (hs : read.schemas.get? name = some s) :
    ∃ s', result.schemaOf? name = some s' := by
  unfold Model.schemaOf?
  rw [h.outlined.name, h.outlined.schemas, SortedMap.get?_erase]
  by_cases heq : name = settings.naming.systemSchema
  · exact ⟨_, if_pos heq⟩
  · rw [if_neg heq, if_neg heq]
    exact ⟨s, hs⟩

/-- An entity of the result holds what was held at its address. -/
theorem get?_overlayOf {a : Address} {e : Entity}
    (he : result.entityAt? a = some e) (key : Overlay.Key) :
    (result.overlayOf e).get? key = read.heldAt? a key := by
  rcases a.outside_or_in_table with rfl | ⟨name, rfl⟩ | ⟨path, hpath⟩
  · cases he
    have hown : result.overlayOf .catalog = read.carried := h.outlined.own
    rw [hown]
    rfl
  · obtain ⟨s, hs, rfl⟩ := Option.map_eq_some_iff.1 he
    have hown : result.overlayOf (.schema s) = s.carried := rfl
    unfold Model.heldAt?
    rw [hown, Model.overlayAt?_schema]
    rcases h.schemaOf?_carried hs with hread | ⟨hnone, hbare⟩
    · rw [hread]
      rfl
    · rw [hnone, hbare]
      exact Overlay.get?_empty key
  · rw [Model.entityAt?_in_table hpath] at he
    obtain ⟨t, ht, he⟩ := Option.bind_eq_some_iff.1 he
    have ho : t.overlayAt? a = some (result.overlayOf e) := by
      rw [← Model.map_overlayOf_entity? result, he]
      rfl
    unfold Model.heldAt?
    rw [Model.overlayAt?_in_table hpath]
    rcases h.table?_of_tableOf? ht with hread | ⟨rfl, hnone⟩
    · rw [hread, Option.bind_some, ho]
      rfl
    · have hbare := valueMap_carries OverlayProperty.bare_empty
        settings.naming.systemSchema
      rw [hbare.eq_empty ho, hnone]
      exact Overlay.get?_empty key

/-- Where something was read there is an entity of the result. -/
theorem exists_entity {a : Address} {o : Overlay}
    (ho : read.overlayAt? a = some o) : ∃ e, result.entityAt? a = some e := by
  rcases a.outside_or_in_table with rfl | ⟨name, rfl⟩ | ⟨path, hpath⟩
  · exact ⟨.catalog, rfl⟩
  · rw [Model.overlayAt?_schema] at ho
    obtain ⟨s, hs, _⟩ := Option.map_eq_some_iff.1 ho
    obtain ⟨s', hs'⟩ := h.exists_schemaOf? hs
    exact ⟨.schema s', Option.map_eq_some_iff.2 ⟨s', hs', rfl⟩⟩
  · rw [Model.overlayAt?_in_table hpath] at ho
    obtain ⟨t, ht, ho⟩ := Option.bind_eq_some_iff.1 ho
    rw [← Model.map_overlayOf_entity? result] at ho
    obtain ⟨e, he, _⟩ := Option.map_eq_some_iff.1 ho
    refine ⟨e, ?_⟩
    rw [Model.entityAt?_in_table hpath, h.tableOf?_of_table? ht]
    exact he

end Ends

/-- The stored rows are loaded into a model that carries nothing, whose entities
are those of the result. -/
theorem run_laid {d : Dump} {settings : Settings} {result : Introspection}
    (h : run d.reader settings = .ok result) :
    ∃ base p, readStructure d.reader settings =
        .ok (base, result.report.droppedDefaults) ∧
      Laid base (d.storedRows settings) p ∧
      result.report.skipped = p.skipped ∧ Ends settings p.model result.model := by
  obtain ⟨base, p, hbase, hattach, hskipped, hends⟩ := run_steps result h
  have hbare : base.Carries .bare :=
    readStructure_carries OverlayProperty.bare_empty d.reader _ hbase
  rw [d.attachAll_eq settings base, Except.ok.injEq] at hattach
  have hlaid := (Laid.of_bare fun _ => hbare.heldAt?_eq_none).loadAll
    (d.storedRows settings)
  rw [hattach, List.nil_append] at hlaid
  exact ⟨base, p, hbase, hlaid, hskipped, hends⟩

/-- A row with a place is about an entity of the result. -/
theorem Ends.exists_placed {settings : Settings} {base result : Model}
    {rows : List StoredRow} {p : Progress}
    (hends : Ends settings p.model result) (hlaid : Laid base rows p)
    {row : StoredRow} {a : Address} {key : Overlay.Key}
    (hplace : row.place? base = some (a, key)) :
    ∃ e ∈ result.entities.map Prod.snd, e.address = a := by
  obtain ⟨e, hresolve, _⟩ := place?_eq_some_iff.1 hplace
  have hsome : (p.model.overlayAt? a).isSome = true := by
    rw [hlaid.same]
    simp [Model.overlayAt?, (resolve?_eq_some_iff.1 hresolve).2]
  obtain ⟨o, ho⟩ := Option.isSome_iff_exists.1 hsome
  obtain ⟨e', he'⟩ := hends.exists_entity ho
  exact ⟨e', Model.mem_entities_of_entityAt? he',
    hends.addressable.address_of_entityAt? he'⟩

/-- What the stored rows have made of an introspected model. -/
structure Overlaid (rows : List StoredRow) (base : Model)
    (result : Introspection) : Prop where
  /-- An entity holds the content of the last row for it, and nothing else. -/
  held : ∀ e ∈ result.model.entities.map Prod.snd, ∀ key,
    (result.model.overlayOf e).get? key =
      (lastAt? base rows e.address key).map StoredRow.content
  /-- A row with a place is about an entity. -/
  placed : ∀ row ∈ rows, ∀ a key, row.place? base = some (a, key) →
    ∃ e ∈ result.model.entities.map Prod.snd, e.address = a
  /-- The rows without a place are counted. -/
  skipped : result.report.skipped =
    ⟨unplaced base rows Overlay.Layer.annotation, unplaced base rows .acl,
      unplaced base rows .binding⟩

/-- Whenever an introspection of a dump succeeds, the stored rows are neither lost
nor is anything invented. -/
theorem run_overlaid {d : Dump} {settings : Settings} {result : Introspection}
    (h : run d.reader settings = .ok result) :
    ∃ base, readStructure d.reader settings =
        .ok (base, result.report.droppedDefaults) ∧
      Overlaid (d.storedRows settings) base result := by
  obtain ⟨base, p, hbase, hlaid, hskipped, hends⟩ := run_laid h
  refine ⟨base, hbase, ?_, ?_, hskipped.trans hlaid.skipped⟩
  · intro e he key
    have hat := hends.addressable.holds_of_mem_entities he
    rw [hends.get?_overlayOf hat, hlaid.held]
  · intro row _ a key hplace
    exact hends.exists_placed hlaid hplace

/-- The target of a table. -/
def tableTarget (schema table : String) : Target :=
  ⟨some schema, some table, none, none, none, none, none, none, none, none⟩

/-- Books with stored rows, some of which say the same of the same thing or
something of what is not there. -/
def archive : Dump where
  schemas := [⟨"shelf", none⟩]
  columns :=
    [{ table := ⟨"shelf", "books"⟩
       kind := "r"
       comment := none
       names := ["author", "title"]
       defaults := []
       types := ["text", "text"]
       elementTypes := []
       domainBases := []
       comments := []
       notNulls := [] }]
  tables :=
    [⟨⟨"_ermrest", "model_table_annotation"⟩, "r", none⟩,
      ⟨⟨"_ermrest", "model_key_annotation"⟩, "r", none⟩,
      ⟨⟨"_ermrest", "model_table_acl"⟩, "r", none⟩,
      ⟨⟨"_ermrest", "model_table_dynacl"⟩, "r", none⟩]
  uniques :=
    [⟨⟨"shelf", "books_key"⟩, ⟨"shelf", "books"⟩, ["author", "title"], none⟩]
  foreignKeys := []
  annotations :=
    [(.table,
        [⟨tableTarget "shelf" "books", "display", .str "old"⟩,
          ⟨tableTarget "shelf" "films", "display", .str "lost"⟩,
          ⟨tableTarget "shelf" "books", "display", .str "new"⟩]),
      (.key,
        [⟨{ tableTarget "shelf" "books" with columns := some ["title", "author"] },
          "order", .null⟩])]
  acls :=
    [(.table,
        [⟨tableTarget "shelf" "books", "select", ["*"]⟩,
          ⟨tableTarget "shelf" "books", "levitate", []⟩])]
  bindings :=
    [(.table,
        [⟨tableTarget "shelf" "books", "owner", .disabled⟩,
          ⟨tableTarget "shelf" "books", "nobody",
            .enabled ⟨[.select], none, .acl, none, []⟩⟩])]

theorem readStructure_archive : readStructure archive.reader .standard =
    archive.structureWith .standard archive.uniques [] := by
  have huniques : archive.sortedUniques .standard = archive.uniques :=
    List.mergeSort_of_pairwise (by decide)
  have hforeignKeys : archive.sortedForeignKeys .standard = [] :=
    List.mergeSort_of_pairwise (by decide)
  rw [readStructure_eq, huniques, hforeignKeys]

theorem archive_runs :
    ∃ result, run archive.reader .standard = .ok result ∧
      result.report.skipped = ⟨1, 1, 1⟩ := by
  have hskipped : (run archive.reader .standard).toOption.map
      (·.report.skipped) = some ⟨1, 1, 1⟩ := by
    unfold run
    rw [readStructure_archive]
    decide +kernel
  obtain ⟨result, hresult, hskipped⟩ := Option.map_eq_some_iff.1 hskipped
  exact ⟨result, toOption_eq_some_iff.1 hresult, hskipped⟩

theorem run_overlaid_archive :
    ∃ result, run archive.reader .standard = .ok result ∧
      result.report.skipped = ⟨1, 1, 1⟩ ∧
      ∃ base, readStructure archive.reader .standard =
          .ok (base, result.report.droppedDefaults) ∧
        Overlaid (archive.storedRows .standard) base result := by
  obtain ⟨result, hresult, hskipped⟩ := archive_runs
  exact ⟨result, hresult, hskipped, run_overlaid hresult⟩

end Introspection

end GovernedCatalog
