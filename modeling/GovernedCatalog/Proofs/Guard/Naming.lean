import GovernedCatalog.Proofs.Guard.Steps
import GovernedCatalog.Proofs.Introspection.Boundary
import GovernedCatalog.Proofs.Introspection.Deduplication
import GovernedCatalog.Proofs.Introspection.Overlaid

/-!
# References named by paths

A step of a path names a reference by one of its constraints.  The names of
constraints are those of one table, so no two references out of a table have a
name in common.  Two tables can give the same name to their references into a
third one, and then a step from there follows the reference that comes first.
-/

namespace GovernedCatalog

/-- The table from which the reference is followed. -/
def Reference.near (r : Reference) : Direction → TablePath
  | .outbound => r.source
  | .inbound => r.mapping.target

/-- Whether exactly one of the references has the constraint. -/
def NamesOne (references : List Reference) (c : ConstraintName) : Prop :=
  ∃! r, r ∈ references ∧ c ∈ r.constraints

section Search

variable {references : List Reference} {c : ConstraintName} {r : Reference}

theorem mem_of_find? (h : references.find? (·.constraints.contains c) = some r) :
    r ∈ references ∧ c ∈ r.constraints := by
  constructor
  · exact List.mem_of_find?_eq_some h
  · have hcontains := List.find?_some h
    exact SortedSet.contains_iff.1 hcontains

theorem find?_of_mem (hr : r ∈ references) (hc : c ∈ r.constraints) :
    ∃ r', references.find? (·.constraints.contains c) = some r' := by
  rw [← Option.isSome_iff_exists, List.find?_isSome]
  exact ⟨r, hr, SortedSet.contains_iff.2 hc⟩

/-- The first reference with a constraint is the same in every order if and only
if it is the only one. -/
theorem find?_perm_iff (hr : r ∈ references) (hc : c ∈ r.constraints) :
    (∀ reordered : List Reference, reordered.Perm references →
      reordered.find? (·.constraints.contains c) = some r) ↔
        NamesOne references c := by
  constructor
  · intro h
    refine ⟨r, ⟨hr, hc⟩, ?_⟩
    rintro r' ⟨hr', hc'⟩
    -- Another reference with the constraint could be the first one.
    obtain ⟨before, after, rfl⟩ := List.append_of_mem hr'
    have hfirst := h (r' :: (before ++ after)) List.perm_middle.symm
    rw [List.find?_cons, SortedSet.contains_iff.2 hc'] at hfirst
    exact Option.some.inj hfirst
  · intro hone reordered hperm
    obtain ⟨r', hfind⟩ := find?_of_mem (hperm.mem_iff.2 hr) hc
    obtain ⟨hr', hc'⟩ := mem_of_find? hfind
    rw [hfind, hone.unique ⟨hperm.mem_iff.1 hr', hc'⟩ ⟨hr, hc⟩]

end Search

namespace Introspection

open Dump

section Read

variable {d : Dump} {settings : Settings} {read : Model}
  (hgrouped : Grouped (d.sortedUniques settings) (d.sortedForeignKeys settings)
    read)

include hgrouped

/-- References with the same constraint are the same one where the rows with that
constraint have different keys. -/
theorem reference_id_eq {β : Type} {key : ForeignKeyRow → β}
    (hapart : (d.foreignKeys.map fun row => (row.constraint, key row)).Nodup)
    {r r' : Reference} (hr : read.reference? r.id = some r)
    (hr' : read.reference? r'.id = some r') {c : ConstraintName}
    (hc : c ∈ r.constraints) (hc' : c ∈ r'.constraints)
    (hkey : ∀ row row' : ForeignKeyRow, row.Describes r.id →
      row'.Describes r'.id → key row = key row') : r = r' := by
  obtain ⟨row, hrow, hdescribes, hname⟩ :=
    (mem_reference_constraints_iff hgrouped hr c).1 hc
  obtain ⟨row', hrow', hdescribes', hname'⟩ :=
    (mem_reference_constraints_iff hgrouped hr' c).1 hc'
  have hsame : row = row' := by
    have hincluded : ((d.includedForeignKeys settings).map fun row =>
        (row.constraint, key row)).Nodup :=
      included_apart (included_apart hapart)
    apply List.inj_on_of_nodup_map hincluded hrow hrow'
    exact Prod.ext (hname.trans hname'.symm) (hkey row row' hdescribes hdescribes')
  subst hsame
  have hsource : r.source = r'.source := hdescribes.1.symm.trans hdescribes'.1
  have hmapping : r.mapping = r'.mapping :=
    ReferenceMap.Lists.unique hdescribes.2 hdescribes'.2
  rw [Reference.id, hsource, hmapping] at hr
  exact Option.some.inj (hr.symm.trans hr')

end Read

/-- The references on one side of a table, and the one among them that a step
with a constraint follows. -/
structure Follows (d : Dump) (m : Model) (t : Table) (direction : Direction)
    (c : ConstraintName) (references : List Reference) (r : Reference) :
    Prop where
  listed : m.references? t direction = some references
  followed : m.followed? t direction c = some r
  mem : r ∈ references
  named : c ∈ r.constraints
  outbound : direction = .outbound → NamesOne references c
  /-- Only a reference from another table can have the same constraint. -/
  one_iff : NamesOne references c ↔
    ∀ r' ∈ references, c ∈ r'.constraints → r'.source = r.source
  order_iff :
    (∀ reordered : List Reference, reordered.Perm references →
      reordered.find? (·.constraints.contains c) = some r) ↔
        NamesOne references c
  /-- No other reference has it where constraints of references into one table
  have different names. -/
  apart : (d.foreignKeys.map fun row => (row.constraint, row.target)).Nodup →
    NamesOne references c

section Ends

variable {d : Dump} {settings : Settings} {read result : Model}
  (hends : Ends settings read result)
  (hgrouped : Grouped (d.sortedUniques settings) (d.sortedForeignKeys settings)
    read)
  {path : TablePath} {t : Table} (ht : result.tableOf? path = some t)

include hends

/-- A reference that a step finds was read, with the table at its side. -/
theorem read_of_references? (ht : result.tableOf? path = some t)
    {direction : Direction} {references : List Reference}
    (h : result.references? t direction = some references) {r : Reference}
    (hr : r ∈ references) :
    read.reference? r.id = some r ∧ r.near direction = t.path := by
  have hnamed := hends.reading.closed.named
  cases direction with
  | outbound =>
      cases h
      rcases hends.table?_of_tableOf? ht with hread | ⟨rfl, -⟩
      · have hget := (hnamed.table hread).mem_references.1 hr
        have hsource := ((hnamed.table hread).reference hget).1
        have hpath := (hnamed.table hread).path_eq
        rw [← hsource] at hread hpath
        exact ⟨Model.reference?_eq_some_iff.2 ⟨t, hread, hget⟩, hpath.symm⟩
      · cases hr
  | inbound =>
      obtain ⟨seen, hseen, hreferences⟩ :=
        bind_eq_ok.1 (toOption_eq_some_iff.1 h)
      obtain ⟨id, hid, hget⟩ := (mem_mapM_iff hreferences).1 hr
      obtain ⟨key, hkey, hid⟩ := List.mem_flatMap.1 hid
      obtain ⟨columns, hcolumns⟩ := SortedMap.mem_values_iff.1 hkey
      have hread := hends.table?_read (Model.table_eq_ok_iff.1 hseen)
      obtain ⟨r', hr', htarget, -⟩ := hends.reading.closed.inbound
        (Model.key?_eq_some_iff.2 ⟨seen, hread, hcolumns⟩) id
        (SortedSet.mem_elems.1 hid)
      rw [Model.reference_eq_ok_iff] at hget hr'
      rw [hends.reference?_eq, Option.ite_none_left_eq_some] at hget
      cases hget.2.symm.trans hr'
      rw [hnamed.reference_id hr']
      exact ⟨hr', htarget⟩

include hgrouped ht

/-- A step that finds a reference follows the first with its constraint. -/
theorem follows_of_read (hapart : d.ConstraintsApart)
    {direction : Direction} {c : ConstraintName} {r : Reference}
    (h : result.followed? t direction c = some r) :
    ∃ references, Follows d result t direction c references r := by
  obtain ⟨references, hlisted, hfind⟩ := Option.bind_eq_some_iff.1 h
  obtain ⟨hmem, hnamed⟩ := mem_of_find? hfind
  obtain ⟨hread, hside⟩ := read_of_references? hends ht hlisted hmem
  -- All of them were read, and a row has one table and one target.
  have hsame : ∀ r' ∈ references, c ∈ r'.constraints → r'.source = r.source →
      r' = r := by
    intro r' hr' hc' hsource
    have hread' := (read_of_references? hends ht hlisted hr').1
    apply reference_id_eq hgrouped hapart.foreignKeys hread' hread hc' hnamed
    intro row row' hdescribes hdescribes'
    rw [hdescribes.1, hdescribes'.1]
    exact hsource
  have hone : NamesOne references c ↔
      ∀ r' ∈ references, c ∈ r'.constraints → r'.source = r.source := by
    constructor
    · intro hone r' hr' hc'
      rw [hone.unique ⟨hr', hc'⟩ ⟨hmem, hnamed⟩]
    · intro hsource
      refine ⟨r, ⟨hmem, hnamed⟩, ?_⟩
      rintro r' ⟨hr', hc'⟩
      exact hsame r' hr' hc' (hsource r' hr' hc')
  have hout : direction = .outbound → NamesOne references c := by
    rintro rfl
    apply hone.2
    intro r' hr' _
    exact (read_of_references? hends ht hlisted hr').2.trans hside.symm
  have hin (htargets : (d.foreignKeys.map fun row =>
      (row.constraint, row.target)).Nodup) : NamesOne references c := by
    cases direction with
    | outbound => exact hout rfl
    | inbound =>
        refine ⟨r, ⟨hmem, hnamed⟩, ?_⟩
        rintro r' ⟨hr', hc'⟩
        obtain ⟨hread', hside'⟩ := read_of_references? hends ht hlisted hr'
        apply reference_id_eq hgrouped htargets hread' hread hc' hnamed
        intro row row' hdescribes hdescribes'
        rw [← hdescribes.2.1, ← hdescribes'.2.1]
        exact hside'.trans hside.symm
  exact ⟨references, hlisted, h, hmem, hnamed, hout, hone,
    find?_perm_iff hmem hnamed, hin⟩

end Ends

end Introspection

namespace Guard

open Introspection

namespace Walk

variable {m : Model} {w w' : Walk}

theorem run_append_eq_ok {before after : List PathElement} :
    w.run m (before ++ after) = .ok w' ↔
      ∃ mid, w.run m before = .ok mid ∧ mid.run m after = .ok w' := by
  unfold run
  rw [List.foldlM_append, bind_eq_ok]

/-- A walk stays at tables of the model. -/
theorem run_tableOf? {steps : List PathElement} (h : w.run m steps = .ok w')
    (hw : ∃ path, m.tableOf? path = some w.table) :
    ∃ path, m.tableOf? path = some w'.table := by
  induction steps generalizing w with
  | nil =>
      cases h
      exact hw
  | cons element rest ih =>
      obtain ⟨next, hstep, hrest⟩ := run_cons_eq_ok.1 h
      apply ih hrest
      cases hstep with
      | filter hc hcondition => exact hw
      | follow hr hnext => exact ⟨_, hnext⟩

end Walk

/-- Every step along a path of a compiled binding follows a reference that no
other one out of the table, or from the same table into it, shares the
constraint with. -/
theorem compileBinding_follows {d : Dump} {settings : Settings}
    {result : Introspection} (hrun : run d.reader settings = .ok result)
    (hapart : d.ConstraintsApart) {path : TablePath} {t : Table}
    (ht : result.model.tableOf? path = some t) {roles : Roles}
    {alias? : Option String} {b : Binding} {projection : Projection}
    {sql : String} (hclause : b.clause = none)
    (hprojection : b.projection = some projection)
    (h : compileBinding result.model roles t alias? b = .ok sql)
    {before after : List PathElement} {direction : Direction}
    {c : ConstraintName} {name : String}
    (hsplit : projection.split =
      .ok (before ++ .follow direction c :: after, name)) :
    ∃ w references r, (Walk.start t).run result.model before = .ok w ∧
      Follows d result.model w.table direction c references r := by
  obtain ⟨p, hp, -⟩ := (compileBinding_projection hclause hprojection).1 h
  obtain ⟨_, _, w', _, hsplit', hsteps, -⟩ := pathCondition_eq_ok.1 hp
  cases hsplit.symm.trans hsplit'
  obtain ⟨w, hbefore, hafter⟩ := Walk.run_append_eq_ok.1 hsteps
  obtain ⟨_, hstep, -⟩ := Walk.run_cons_eq_ok.1 hafter
  obtain ⟨read, hends, hgrouped⟩ := run_ends (readStructure_grouped d settings)
    (grouped_kept _ _) result hrun
  obtain ⟨_, htable⟩ := Walk.run_tableOf? hbefore ⟨path, ht⟩
  cases hstep with
  | follow hr hnext =>
      obtain ⟨references, hfollows⟩ :=
        follows_of_read hends hgrouped htable hapart hr
      exact ⟨w, references, _, hbefore, hfollows⟩

/-- Samples of two kinds, whose references to their batches have one name. -/
def samples : Dump where
  schemas := [⟨"lab", none⟩]
  columns := ["batch", "blood", "soil"].map fun table =>
    { table := ⟨"lab", table⟩
      kind := "r"
      comment := none
      names := ["batch", "owner"]
      defaults := []
      types := ["text", "text"]
      elementTypes := []
      domainBases := []
      comments := []
      notNulls := [] }
  tables := []
  uniques := [⟨⟨"lab", "batch_key"⟩, batch, ["batch"], none⟩]
  foreignKeys :=
    [⟨⟨"lab", "of_batch"⟩, blood, ["batch"], batch, ["batch"], "NO ACTION",
        "NO ACTION", none⟩,
      ⟨⟨"lab", "of_batch"⟩, soil, ["batch"], batch, ["batch"], "NO ACTION",
        "NO ACTION", none⟩]
  annotations := []
  acls := []
  bindings := []
where
  batch : TablePath := ⟨"lab", "batch"⟩
  blood : TablePath := ⟨"lab", "blood"⟩
  soil : TablePath := ⟨"lab", "soil"⟩

theorem samples_apart : samples.ConstraintsApart where
  uniques := by decide
  foreignKeys := by decide

/-- Rows are for the owners of the samples of a batch. -/
def samples.binding (steps : List PathElement) : Binding :=
  ⟨[.select], some (.path (steps ++ [.follow .inbound constraint, .column "owner"])),
    .acl, none, Binding.everyone⟩
where
  constraint : ConstraintName := ⟨"lab", "of_batch"⟩

/-- From a sample to its batch. -/
def samples.toBatch : List PathElement :=
  [.follow .outbound ⟨"lab", "of_batch"⟩]

/-- Whether the binding compiles on the table. -/
def samples.compiles (m : Model) (path : TablePath) (steps : List PathElement) :
    Bool :=
  (m.tableOf? path).any fun t =>
    (compileBinding m {} t none (samples.binding steps)).isOk

/-- Whether the references into the batches are from both of the other tables
and have the same constraint. -/
def samples.shared (m : Model) : Bool :=
  (m.tableOf? batch).any fun t =>
    (m.references? t .inbound).any fun references =>
      references.map (·.source) == [blood, soil] &&
        references.all (·.constraints.contains samples.binding.constraint)

theorem samples_run : ∃ result, run samples.reader .standard = .ok result ∧
    samples.compiles result.model samples.soil samples.toBatch = true ∧
    samples.compiles result.model samples.batch [] = true ∧
    samples.shared result.model = true := by
  have huniques : samples.sortedUniques .standard = samples.uniques :=
    List.mergeSort_of_pairwise (by decide)
  have hforeignKeys : samples.sortedForeignKeys .standard = samples.foreignKeys :=
    List.mergeSort_of_pairwise (by decide)
  have hrun : (run samples.reader .standard).toOption.any (fun result =>
      samples.compiles result.model samples.soil samples.toBatch &&
        samples.compiles result.model samples.batch [] &&
        samples.shared result.model) = true := by
    unfold run
    rw [readStructure_eq, huniques, hforeignKeys]
    decide +kernel
  obtain ⟨result, hresult, hchecks⟩ := (Option.any_eq_true ..).1 hrun
  simp only [Bool.and_eq_true, and_assoc] at hchecks
  exact ⟨result, toOption_eq_some_iff.1 hresult, hchecks⟩

theorem samples_compiled {m : Model} {path : TablePath}
    {steps : List PathElement} (h : samples.compiles m path steps = true) :
    ∃ t sql, m.tableOf? path = some t ∧
      compileBinding m {} t none (samples.binding steps) = .ok sql := by
  obtain ⟨t, ht, hok⟩ := (Option.any_eq_true ..).1 h
  cases hsql : compileBinding m {} t none (samples.binding steps) with
  | error e =>
      rw [hsql] at hok
      cases hok
  | ok sql => exact ⟨t, sql, ht, hsql⟩

theorem compileBinding_follows_samples :
    samples.ConstraintsApart ∧
      ∃ result t sql, run samples.reader .standard = .ok result ∧
        result.model.tableOf? samples.soil = some t ∧
        compileBinding result.model {} t none
          (samples.binding samples.toBatch) = .ok sql ∧
        ∃ w references r,
          (Walk.start t).run result.model samples.toBatch = .ok w ∧
            Follows samples result.model w.table .inbound ⟨"lab", "of_batch"⟩
              references r := by
  obtain ⟨result, hrun, hcompiles, -⟩ := samples_run
  obtain ⟨t, sql, ht, hsql⟩ := samples_compiled hcompiles
  exact ⟨samples_apart, result, t, sql, hrun, ht, hsql,
    compileBinding_follows hrun samples_apart ht rfl rfl hsql rfl⟩

/-- The condition of a batch is that of the first of two tables whose references
have the constraint of the path. -/
theorem samples_ambiguous :
    samples.ConstraintsApart ∧
      ∃ result t sql references, run samples.reader .standard = .ok result ∧
        result.model.tableOf? samples.batch = some t ∧
        compileBinding result.model {} t none (samples.binding []) = .ok sql ∧
        result.model.references? t .inbound = some references ∧
        ¬NamesOne references ⟨"lab", "of_batch"⟩ := by
  obtain ⟨result, hrun, -, hcompiles, hshared⟩ := samples_run
  obtain ⟨t, sql, ht, hsql⟩ := samples_compiled hcompiles
  obtain ⟨t', ht', hreferences⟩ := (Option.any_eq_true ..).1 hshared
  cases ht.symm.trans ht'
  obtain ⟨references, hlisted, hboth⟩ := (Option.any_eq_true ..).1 hreferences
  rw [Bool.and_eq_true, beq_iff_eq, List.all_eq_true] at hboth
  obtain ⟨hsources, hnamed⟩ := hboth
  refine ⟨samples_apart, result, t, sql, references, hrun, ht, hsql, hlisted, ?_⟩
  intro hone
  have hfrom {path : TablePath} (h : path ∈ references.map (·.source)) :
      ∃ r, (r ∈ references ∧ samples.binding.constraint ∈ r.constraints) ∧
        r.source = path := by
    obtain ⟨r, hr, rfl⟩ := List.mem_map.1 h
    exact ⟨r, ⟨hr, SortedSet.contains_iff.1 (hnamed r hr)⟩, rfl⟩
  rw [hsources] at hfrom
  obtain ⟨r, hr, hblood⟩ := @hfrom samples.blood (by simp)
  obtain ⟨r', hr', hsoil⟩ := @hfrom samples.soil (by simp)
  rw [hone.unique hr hr', hsoil] at hblood
  exact absurd hblood (by decide)

end Guard

end GovernedCatalog
