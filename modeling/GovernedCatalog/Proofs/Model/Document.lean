import GovernedCatalog.Model.Apply
import GovernedCatalog.Proofs.Model.Overlay

/-!
# Documents keep a model closed

A described table is well formed and without references, so it is added like an
empty one; its foreign keys are additions of references to the tables that are
there by then.
-/

namespace GovernedCatalog

/-- A table at a path to which and from which there are no references. -/
structure Table.Unlinked (t : Table) (path : TablePath) : Prop
    extends t.WellFormed path where
  no_links : ∀ columns id, ¬t.Links columns id
  no_foreignKeys : t.foreignKeys = ∅

namespace Table.Unlinked

variable {t : Table} {path : TablePath}

theorem no_reference (ht : t.Unlinked path) (mapping : ReferenceMap) :
    t.reference? mapping = none := by
  simp [reference?, ht.no_foreignKeys]

/-- A table without columns, keys and foreign keys. -/
theorem of_empty (hcolumns : t.columns = []) (hkeys : t.keys = ∅)
    (hforeignKeys : t.foreignKeys = ∅) : t.Unlinked t.path where
  toWellFormed := WellFormed.of_empty hcolumns hkeys hforeignKeys
  no_links := by simp [Links, key?, hkeys]
  no_foreignKeys := hforeignKeys

theorem addColumn (ht : t.Unlinked path) {c : Column} (hc : c.table = path) :
    Ensures (t.addColumn c) fun t' => t'.Unlinked path := by
  intro t' h
  have hwell := ht.toWellFormed.addColumn hc h
  obtain ⟨_, rfl⟩ := addColumn_eq_ok h
  exact ⟨hwell, ht.no_links, ht.no_foreignKeys⟩

theorem addKey (ht : t.Unlinked path) {columns : ColumnSet}
    (hcolumns : ∀ name ∈ columns, t.hasColumn name = true)
    (constraint? : Option ConstraintName) :
    (t.addKey columns constraint?).Unlinked path where
  toWellFormed := ht.toWellFormed.addKey hcolumns constraint?
  no_links := fun columns' id hlinks =>
    ht.no_links columns' id ((links_addKey ..).1 hlinks)
  no_foreignKeys := ht.no_foreignKeys

theorem updateKey (ht : t.Unlinked path) {columns : ColumnSet}
    {f : UniqueKey → UniqueKey} (htable : ∀ key, (f key).table = key.table)
    (hcolumns : ∀ key, (f key).columns = key.columns)
    (hreferencedBy : ∀ key, (f key).referencedBy = key.referencedBy) :
    (t.updateKey columns f).Unlinked path where
  toWellFormed := ht.toWellFormed.updateKey htable hcolumns
  no_links := fun columns' id hlinks => by
    rw [links_updateKey fun key => by rw [hreferencedBy]] at hlinks
    exact ht.no_links columns' id hlinks
  no_foreignKeys := ht.no_foreignKeys

end Table.Unlinked

theorem ColumnDocument.build_ensures (doc : ColumnDocument) (path : TablePath)
    (position : Nat) (settings : Settings) :
    Ensures (doc.build path position settings) fun c => c.table = path := by
  unfold build
  refine .after fun name => .after fun _ => .after fun typeDoc => .after fun type => ?_
  cases givenDefault doc.default with
  | none =>
      exact .after fun _ => .after fun _ => .ok rfl
  | some value =>
      exact .after fun _ => .after fun _ => .after fun _ => .ok rfl

theorem KeyDocument.addTo_ensures (doc : KeyDocument) {t : Table}
    {path : TablePath} (ht : t.Unlinked path) :
    Ensures (doc.addTo t) fun t' => t'.Unlinked path := by
  unfold addTo
  refine .after fun names => ?_
  cases hmissing : names.find? fun name => !t.hasColumn name with
  | some name => exact .error_bind
  | none =>
      refine .after fun _ => .ok ?_
      have hcolumns : ∀ name ∈ SortedSet.ofList names,
          t.hasColumn name = true := by
        intro name hname
        simpa using List.find?_eq_none.1 hmissing name
          (SortedSet.mem_ofList.1 hname)
      exact (ht.addKey hcolumns none).updateKey (fun _ => rfl) (fun _ => rfl)
        (fun _ => rfl)

theorem TableDocument.build_ensures (doc : TableDocument) (schema : String)
    (settings : Settings) :
    Ensures (doc.build schema settings) fun t =>
      t.Unlinked ⟨schema, t.name⟩ := by
  unfold build
  refine .after fun name => .after fun _ => ?_
  -- The steps after the checks of the schema and of the kind.
  extract_lets fill readKind
  have hfill : ∀ kind, Ensures (fill kind) fun t =>
      t.Unlinked ⟨schema, t.name⟩ := by
    intro kind
    refine .after fun _ => .after fun _ => ?_
    extract_lets plain bare
    have hbare : bare.Unlinked ⟨schema, name⟩ := .of_empty rfl rfl rfl
    refine .bind (.foldlM (P := fun t => t.Unlinked ⟨schema, name⟩)
      (fun t column _ ht => ?_) hbare) fun t ht => ?_
    · obtain ⟨column, position⟩ := column
      refine .bind (column.build_ensures bare.path position settings) ?_
      exact fun c hc => ht.addColumn hc
    · intro t' h
      have ht' : t'.Unlinked ⟨schema, name⟩ :=
        Ensures.foldlM (P := fun t => t.Unlinked ⟨schema, name⟩)
          (fun t key _ ht => key.addTo_ensures ht) ht t' h
      have hname : t'.name = name := congrArg TablePath.table ht'.path_eq
      rw [hname]
      exact ht'
  have hread : ∀ u, Ensures (readKind u) fun t =>
      t.Unlinked ⟨schema, t.name⟩ := by
    intro u
    cases hkind : doc.kind with
    | none => simpa only [readKind, hkind] using .after hfill
    | some kind => simpa only [readKind, hkind] using .after hfill
  cases doc.schema with
  | none => exact hread ()
  | some found =>
      by_cases hfound : (found != schema) = true
      · simpa only [if_pos hfound] using .error_bind
      · simpa only [if_neg hfound] using hread ()

/-! ## What documents keep -/

namespace Model

/-- What is kept by the steps in which a described table or schema is added. -/
structure Extends (P : Model → Prop) : Prop where
  table : ∀ {m m' : Model} {doc : TableDocument} {schema : String}
    {settings : Settings} {t : Table}, P m → doc.build schema settings = .ok t →
      m.addTable schema t = .ok m' → P m'
  foreignKey : ∀ {m : Model}, P m → ∀ source doc,
    Ensures (m.applyForeignKey source doc) P
  schema : ∀ {m m' : Model} {s : Schema}, P m → s.tables = ∅ →
    s.acls.validate .schema = .ok () → m.addSchema s = .ok m' → P m'

namespace Extends

variable {P : Model → Prop} (hP : Extends P) {m : Model} (hm : P m)
  (settings : Settings)

include hP hm

theorem applyBareTable (schema : String) (doc : TableDocument) :
    Ensures (m.applyBareTable schema doc settings) fun result =>
      P result.1 := by
  intro result h
  obtain ⟨t, ht, h⟩ := bind_eq_ok.1 h
  obtain ⟨m', hadd, h⟩ := bind_eq_ok.1 h
  cases h
  exact hP.table hm ht hadd

theorem applyTable (schema : String) (doc : TableDocument) :
    Ensures (m.applyTable schema doc settings) fun result => P result.1 := by
  unfold Model.applyTable
  refine .bind (hP.applyBareTable hm settings schema doc) ?_
  rintro ⟨extended, path⟩ hextended
  refine .bind (.foldlM (fun _ fk _ hm' => ?_) hextended)
    fun complete hcomplete => .ok hcomplete
  exact hP.foreignKey hm' path fk

theorem applyBareTables (schema : String)
    (docs : List (String × TableDocument)) :
    Ensures (m.applyBareTables schema settings docs) fun result =>
      P result.1 := by
  induction docs generalizing m with
  | nil => exact .ok hm
  | cons head rest ih =>
      obtain ⟨name, doc⟩ := head
      unfold Model.applyBareTables
      refine .bind (hP.applyBareTable hm settings schema _) ?_
      rintro ⟨extended, path⟩ hextended
      refine .bind (ih hextended) ?_
      rintro ⟨complete, later⟩ hcomplete
      exact .ok hcomplete

theorem applySchema (doc : SchemaDocument) :
    Ensures (m.applySchema doc settings) P := by
  unfold Model.applySchema
  refine .after fun name => .after fun _ => ?_
  refine .bind (fun _ h => h) fun u hacls => ?_
  refine .bind (fun _ h => hP.schema hm rfl hacls h) fun added hadded => ?_
  refine .bind (hP.applyBareTables hadded settings name doc.tables.entries) ?_
  rintro ⟨extended, foreignKeys⟩ hextended
  refine .foldlM (fun _ entry _ hm' => ?_) hextended
  obtain ⟨path, fk⟩ := entry
  exact hP.foreignKey hm' path fk

end Extends

/-- Documents keep a model closed. -/
theorem closed_extends : Extends Closed where
  table hm ht h := by
    have hunlinked := TableDocument.build_ensures _ _ _ _ ht
    exact hm.addTable hunlinked.toWellFormed hunlinked.no_links
      hunlinked.no_reference h
  foreignKey hm source doc := by
    unfold Model.applyForeignKey
    refine .after fun mapping => .bind (fun _ h => hm.addReference h) ?_
    intro extended hextended
    exact .ok (hextended.updateReference source mapping (fun _ => rfl)
      (fun _ => rfl))
  schema hm htables _ h := hm.addSchema (alone_closed htables) h

namespace Closed

variable {m : Model} (hm : m.Closed)

include hm

theorem applyTable (schema : String) (doc : TableDocument)
    (settings : Settings) :
    Ensures (m.applyTable schema doc settings) fun result => result.1.Closed :=
  closed_extends.applyTable hm settings schema doc

theorem applySchema (doc : SchemaDocument) (settings : Settings) :
    Ensures (m.applySchema doc settings) Closed :=
  closed_extends.applySchema hm settings doc

end Closed

end Model

end GovernedCatalog
