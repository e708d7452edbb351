import GovernedCatalog.Proofs.Catalog.Hidden
import GovernedCatalog.Proofs.Document.Provenance
import GovernedCatalog.Proofs.Rights.Strength

/-!
# Documents that rebuild a schema

The owner of a schema, of its tables and of the tables that these refer to is
shown all of the schema.  What is shown can be read, and applied to the model
from before the schema was added it adds the same schema again.
-/

namespace GovernedCatalog

open Json Render

/-- Requesters with the roles own the schema, its tables and the tables that
these refer to. -/
structure Model.Owns (m : Model) (roles : Roles) (s : Schema) : Prop where
  schema : decide m roles (.schema s) .owner = .allow
  tables : ∀ t ∈ s.tables.values, decide m roles (.table t) .owner = .allow
  targets : ∀ r ∈ s.references, ∀ target,
    m.table? r.mapping.target = some target →
      decide m roles (.table target) .owner = .allow

namespace Render

variable {m : Model} {roles : Roles}

theorem ownerFields_of_owner {e : Entity}
    (h : decide m roles e .owner = .allow) (fields : List (String × Json)) :
    Id.run (ownerFields (afresh m roles) e fields) = fields := by
  unfold ownerFields isOwner afresh
  rw [h]
  rfl

theorem shown_of_owner {α β : Type} {entity : α → Entity}
    {documents : α → List β} {l : List α}
    (h : ∀ a ∈ l, decide m roles (entity a) .enumerate = .allow) :
    shown m roles entity documents l = l.flatMap documents := by
  refine List.flatMap_congr fun a ha => ?_
  rw [h a ha]
  rfl

theorem visible_of_owner {α : Type} {entity : α → Entity}
    {render : α → Id Json} {l : List α}
    (h : ∀ a ∈ l, decide m roles (entity a) .enumerate = .allow) :
    Id.run (visible (afresh m roles) entity render l) =
      l.map fun a => Id.run (render a) := by
  rw [visible_eq_shown, shown_of_owner h, List.map_eq_flatMap]

theorem visibleByName_of_owner {α : Type} {entity : α → Entity}
    {name : α → String} {render : α → Id Json} {l : List α}
    (h : ∀ a ∈ l, decide m roles (entity a) .enumerate = .allow) :
    Id.run (visibleByName (afresh m roles) entity name render l) =
      l.map fun a => (name a, Id.run (render a)) := by
  rw [visibleByName_eq_shown, shown_of_owner h, List.map_eq_flatMap]

theorem column_of_owner {t : Table} {c : Column}
    (ht : m.tableOf? c.table = some t)
    (howner : decide m roles (.table t) .owner = .allow) :
    ∃ rights, Id.run (column (afresh m roles) m c) = object (c.fields rights) := by
  refine ⟨(Id.run (rights (afresh m roles) (.column c))).2, ?_⟩
  unfold column
  simp only [ht, Id.run_bind, ownerFields_of_owner howner]
  rfl

theorem reference_of_owner {r : Reference}
    (howner : decide m roles (.reference r) .owner = .allow) :
    ∃ rights, Id.run (reference (afresh m roles) r) =
      object (r.fields rights) := by
  refine ⟨(Id.run (rights (afresh m roles) (.reference r))).2, ?_⟩
  unfold reference
  simp only [Id.run_bind, ownerFields_of_owner howner]
  rfl

section Table

variable (hm : m.Addressable) (hclosed : m.Closed) {path : TablePath}
  {t : Table} (ht : m.table? path = some t)
  (howner : decide m roles (.table t) .owner = .allow)

include hm ht howner

theorem columns_of_owner (hcanonical : ∀ c ∈ t.columns, c.IsCanonical) :
    asList ColumnDocument.ofJson? (.arr (Id.run (visible (afresh m roles) .column
      (column (afresh m roles) m) t.columns))) =
        some (t.columns.map Column.document) := by
  have hnamed := hm.table ht
  have hvisible : ∀ c ∈ t.columns,
      decide m roles (.column c) .enumerate = .allow := fun c hc =>
    decide_column_of_owner howner hm ht
      (hnamed.column?_eq_some_iff.2 ⟨hc, rfl⟩) .enumerate
  rw [visible_of_owner hvisible]
  refine asList_arr fun c hc => ?_
  have htable : m.tableOf? c.table = some t := by
    rw [hnamed.column_table c hc]
    exact hm.tableOf?_of_table? ht
  obtain ⟨rights, hcolumn⟩ := column_of_owner htable howner
  rw [hcolumn]
  exact ColumnDocument.ofJson?_fields (hcanonical c hc) rights

include hclosed

theorem keys_of_owner (hcanonical : t.IsCanonical) :
    asList KeyDocument.ofJson? (.arr (Id.run (visible (afresh m roles) .key
      (fun k => pure (key k)) t.keys.values))) =
        some (t.keys.values.map UniqueKey.document) := by
  have hwell := hclosed.table ht
  have hvisible : ∀ k ∈ t.keys.values,
      decide m roles (.key k) .enumerate = .allow := by
    intro k hk
    obtain ⟨columns, hget⟩ := SortedMap.mem_values_iff.1 hk
    exact decide_key_of_owner howner hm ht hwell hget .enumerate
  rw [visible_of_owner hvisible]
  refine asList_arr fun k hk => ?_
  obtain ⟨columns, hget⟩ := SortedMap.mem_values_iff.1 hk
  exact KeyDocument.ofJson?_key (hcanonical.keys columns k hget)

theorem references_of_owner
    (hreferences : ∀ r ∈ t.references,
      decide m roles (.reference r) .owner = .allow) :
    Id.run (references (afresh m roles) t.foreignKeys.values) =
      t.references.map fun r => Id.run (reference (afresh m roles) r) := by
  have hmem : ∀ fk ∈ t.foreignKeys.values, ∀ r ∈ fk.references.values,
      r ∈ t.references :=
    fun fk hfk r hr => List.mem_flatMap.2 ⟨fk, hfk, hr⟩
  have hwell := hclosed.table ht
  have hvisible : ∀ fk ∈ t.foreignKeys.values,
      decide m roles (.foreignKey fk) .enumerate = .allow := by
    intro fk hfk
    obtain ⟨columns, hget⟩ := SortedMap.mem_values_iff.1 hfk
    obtain ⟨mapping, r, hr⟩ :=
      SortedMap.exists_of_isEmpty_eq_false (hwell.foreignKey_nonempty hget)
    have hr := SortedMap.mem_values_iff.2 ⟨mapping, hr⟩
    have howned := decide_of_owner (hreferences r (hmem fk hfk r hr)) .enumerate
    exact decide_foreignKey_of_owner hm ht hwell howner hget hr howned
  rw [references_eq_shown, shown_of_owner hvisible, Table.references,
    List.map_flatMap]
  refine List.flatMap_congr fun fk hfk => ?_
  refine (shown_of_owner fun r hr => ?_).trans List.map_eq_flatMap.symm
  exact decide_of_owner (hreferences r (hmem fk hfk r hr)) .enumerate

theorem table_of_owner (hcanonical : t.IsCanonical)
    (hreferences : ∀ r ∈ t.references, r.IsCanonical ∧
      decide m roles (.reference r) .owner = .allow) :
    TableDocument.ofJson? (Id.run (table (afresh m roles) m t)) =
      some t.document := by
  have hcolumns := columns_of_owner hm ht howner hcanonical.columns
  have hkeys := keys_of_owner hm hclosed ht howner hcanonical
  have hforeignKeys : asList ForeignKeyDocument.ofJson?
      (.arr (Id.run (references (afresh m roles) t.foreignKeys.values))) =
        some (t.references.map Reference.document) := by
    rw [references_of_owner hm hclosed ht howner fun r hr => (hreferences r hr).2]
    refine asList_arr fun r hr => ?_
    obtain ⟨hcanonical, howned⟩ := hreferences r hr
    obtain ⟨rights, hreference⟩ := reference_of_owner howned
    rw [hreference]
    exact ForeignKeyDocument.ofJson?_fields hcanonical rights
  have hread := TableDocument.ofJson?_fields hcanonical.annotations
    hcanonical.bindings hcolumns hkeys hforeignKeys
    (Id.run (rights (afresh m roles) (.table t))).2
  rw [← hread]
  unfold table
  simp only [Id.run_bind, ownerFields_of_owner howner]
  rfl

end Table

/-- The owner of a schema is shown a document of all of it. -/
theorem schema_of_owner (hm : m.Addressable) (hclosed : m.Closed) {s : Schema}
    (hs : m.schemas.get? s.name = some s) (howns : m.Owns roles s)
    (hcanonical : s.IsCanonical) :
    SchemaDocument.ofJson? (Id.run (schema (afresh m roles) m s)) =
      some s.document := by
  have hvisible : ∀ t ∈ s.tables.values,
      decide m roles (.table t) .enumerate = .allow := fun t ht =>
    decide_of_owner (howns.tables t ht) .enumerate
  have hread : ∀ t ∈ s.tables.values,
      TableDocument.ofJson? (Id.run (table (afresh m roles) m t)) =
        some t.document := by
    intro t ht
    obtain ⟨e, he, rfl⟩ := List.mem_map.1 ht
    obtain ⟨htable, -⟩ := hclosed.table_of_entry hs he
    refine table_of_owner hm hclosed htable (howns.tables e.2 ht)
      (hcanonical.tables e.2 ht) fun r hr => ?_
    have hmem : r ∈ s.references := List.mem_flatMap.2 ⟨e.2, ht, hr⟩
    exact ⟨hcanonical.references r hmem, owner_reference hm hclosed htable
      (howns.tables e.2 ht) hr (howns.targets r hmem)⟩
  have htables : asMap TableDocument.ofJson? (object (Id.run (visibleByName
      (afresh m roles) .table Table.name (table (afresh m roles) m)
      s.tables.values))) = some (s.tables.mapValues fun _ t => t.document) := by
    have hentries : (s.tables.values.map fun t =>
        (t.name, Id.run (table (afresh m roles) m t))) =
          (s.tables.mapValues fun _ t =>
            Id.run (table (afresh m roles) m t)).entries := by
      refine (List.map_map ..).trans (List.map_congr_left fun e he => ?_)
      obtain ⟨-, hwell⟩ := hclosed.table_of_entry hs he
      exact congrArg (·, _) (congrArg TablePath.table hwell.path_eq)
    rw [visibleByName_of_owner hvisible, hentries, object_entries]
    exact asMap_ofMap hread
  have hdocument := SchemaDocument.ofJson?_fields hcanonical.annotations htables
    (Id.run (rights (afresh m roles) (.schema s))).2
  rw [← hdocument]
  unfold schema
  simp only [Id.run_bind, ownerFields_of_owner howns.schema]
  rfl

end Render

namespace Model

theorem Owns.visiblePart {m : Model} (hm : m.visiblePart.Addressable)
    {roles : Roles} {s : Schema} (hs : m.schemas.get? s.name = some s)
    (h : m.Owns roles s) : m.visiblePart.Owns roles s := by
  have hsame : ∀ e, m.visiblePart.Holds e → ∀ right,
      decide m roles e right = decide m.visiblePart roles e right :=
    fun e he right => Rule.decide_visiblePart Rule.afresh roles right hm he
  have htable : ∀ {path t}, m.table? path = some t →
      m.visiblePart.Holds (.table t) :=
    fun ht => hm.holds_of_tableOf? (hm.tableOf?_of_table? ht)
  constructor
  · rw [← hsame _ (hm.holds_of_schemaOf? (hm.schemaOf?_of_get? hs))]
    exact h.schema
  · intro t ht
    obtain ⟨name, hget⟩ := SortedMap.mem_values_iff.1 ht
    have hpath : m.table? ⟨s.name, name⟩ = some t :=
      table?_eq_some_iff.2 ⟨s, hs, hget⟩
    rw [← hsame _ (htable hpath)]
    exact h.tables t ht
  · intro r hr target htarget
    rw [← hsame _ (htable htarget)]
    exact h.targets r hr target htarget

/-- What the owner of an added schema is shown of it adds it again: read as a
document and applied to the model from before, it gives the same model. -/
theorem applySchema_rendered {m m' : Model} {doc : SchemaDocument}
    {settings : Settings} (hm : m.Closed)
    (hapart : m.schemas.get? m.systemSchema.name = none)
    (hdoc : doc.IsCanonical) (h : m.applySchema doc settings = .ok m') :
    ∃ s, doc.name = some s.name ∧ m'.schemas.get? s.name = some s ∧
      ∀ (stamp : Nat) (roles : Roles), m'.Owns roles s →
        ∃ shown, SchemaDocument.ofJson?
            ((⟨stamp, m'⟩ : Snapshot).evaluate (.fresh roles) fun ask =>
              Render.schema ask m' s).1 = some shown ∧
          m.applySchema shown settings = .ok m' := by
  have hm' : m'.Closed := hm.applySchema doc settings m' h
  have hapart' := applySchema_apart hapart h
  have haddressable := hm'.named.visiblePart_addressable hapart'
  obtain ⟨s, hname, hs, happly⟩ := hm.applySchema_document h
  refine ⟨s, hname, hs, fun stamp roles howns => ⟨s.document, ?_, happly⟩⟩
  have hne : s.name ≠ m'.systemSchema.name := by
    intro heq
    rw [← heq, hs] at hapart'
    cases hapart'
  have hrendered : ((⟨stamp, m'⟩ : Snapshot).evaluate (.fresh roles) fun ask =>
      Render.schema ask m' s).1 =
        Id.run (Render.schema (afresh m'.visiblePart roles) m'.visiblePart s) := by
    refine Snapshot.evaluate_fresh haddressable fun ask hask => ?_
    rw [schema_visiblePart ask hm'.named hs hne]
    exact schema_evaluates hask haddressable
      (haddressable.schemaOf?_of_get? hs)
  rw [hrendered]
  exact schema_of_owner haddressable hm'.visiblePart hs
    (howns.visiblePart haddressable hs)
    (hm.applySchema_isCanonical hdoc h hname hs)

/-! ### A roster -/

/-- A column of a roster. -/
def rosterColumn (name type : String) (default : Option Json) : ColumnDocument where
  name := some name
  type := some (.plain type false false)
  default := default
  nullable := none
  comment := none
  annotations := {}
  acls := {}
  bindings := {}

def rosterPeople : TableDocument where
  name := none
  schema := none
  kind := none
  comment := none
  columns :=
    [rosterColumn "id" "integer" none,
      rosterColumn "name" "text" (some (.str "nobody"))]
  keys := [⟨some ["id"], [⟨"roster", "people_key"⟩], none, {}⟩]
  foreignKeys := []
  annotations := {}
  acls := {}
  bindings := {}

def rosterShifts : TableDocument where
  name := none
  schema := none
  kind := none
  comment := none
  columns := [rosterColumn "person" "integer" none]
  keys := []
  foreignKeys :=
    [⟨some [⟨none, none, "person"⟩], some [⟨none, some "people", "id"⟩], [],
      some .cascade, none, none, {}, {}, {}⟩]
  annotations := .ofList [("origin", .obj [("year", .int 2019)])]
  acls := .ofList [(.enumerate, ["*"])]
  bindings :=
    .ofList [("own",
      .enabled ⟨[.select], some (.column "person"), .acl, none, ["*"]⟩)]

def roster : SchemaDocument where
  name := some "roster"
  comment := none
  annotations := {}
  acls := {}
  tables := .ofList [("people", rosterPeople), ("shifts", rosterShifts)]

/-- The model before the roster: the manager owns whatever is added. -/
def desk : Model :=
  (fresh "sys").setAcls .catalog (.ofList [(.owner, ["manager"])])

def rostered : Model := (desk.applySchema roster .standard).toOption.getD desk

theorem roster_isCanonical : roster.IsCanonical := by
  have hnone : Annotations.IsCanonical {} := fun _ hj => absurd hj List.not_mem_nil
  have hfree : Bindings.IsCanonical {} := fun _ hb => absurd hb List.not_mem_nil
  have hcolumn : ∀ name type default, (∀ j, default = some j → j.IsCanonical) →
      (rosterColumn name type default).IsCanonical :=
    fun _ _ _ hdefault => ⟨hdefault, hnone, hfree⟩
  have hpeople : rosterPeople.IsCanonical := by
    refine ⟨List.forall_mem_cons.2 ⟨?_, List.forall_mem_singleton.2 ?_⟩, ?_,
      nofun, hnone, hfree⟩
    · exact hcolumn _ _ _ nofun
    · exact hcolumn _ _ _ fun j hj => Option.some.inj hj ▸ rfl
    · exact List.forall_mem_singleton.2 ⟨hnone⟩
  have hshifts : rosterShifts.IsCanonical := by
    refine ⟨List.forall_mem_singleton.2 (hcolumn _ _ _ nofun), nofun,
      List.forall_mem_singleton.2 ⟨hnone, hfree⟩, ?_, ?_⟩
    · exact List.forall_mem_singleton.2 rfl
    · refine List.forall_mem_singleton.2 fun p hp => ?_
      cases hp
      trivial
  exact ⟨hnone, List.forall_mem_cons.2 ⟨hpeople, List.forall_mem_singleton.2 hshifts⟩⟩

theorem rostered_owns : ∀ s ∈ rostered.schemas.get? "roster",
    rostered.Owns (.ofList ["manager"]) s := by
  intro s hs
  constructor
  all_goals
    revert s
    decide +kernel

/-- What the manager is shown of the roster adds it again. -/
theorem applySchema_rendered_roster :
    desk.applySchema roster .standard = .ok rostered ∧
      ∃ s, rostered.schemas.get? "roster" = some s ∧
        rostered.Owns (.ofList ["manager"]) s ∧
        ∃ shown, SchemaDocument.ofJson?
            ((⟨0, rostered⟩ : Snapshot).evaluate (.fresh (.ofList ["manager"]))
              fun ask => Render.schema ask rostered s).1 = some shown ∧
          desk.applySchema shown .standard = .ok rostered := by
  have hdesk : desk.Closed := (fresh_closed "sys").setAcls _ _
  have happly : desk.applySchema roster .standard = .ok rostered := rfl
  obtain ⟨s, hname, hs, hrendered⟩ :=
    applySchema_rendered hdesk rfl roster_isCanonical happly
  rw [← Option.some.inj hname] at hs
  have howns := rostered_owns s hs
  exact ⟨happly, s, hs, howns, hrendered 0 _ howns⟩

end Model

end GovernedCatalog
