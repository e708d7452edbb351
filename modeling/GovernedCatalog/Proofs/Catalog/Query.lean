import GovernedCatalog.Catalog
import GovernedCatalog.Proofs.Guard.Column
import GovernedCatalog.Proofs.Introspection.Addressable
import GovernedCatalog.Proofs.Rights.Interleaving

/-!
# Queries compiled from decisions made afresh

A query for a table has an item for every column that is not denied, and the
filter of the table's rows.  In a faithful context it is the query of the
decisions made afresh.
-/

namespace GovernedCatalog.Query

open Guard

/-- The parts of a query for the rows of a table. -/
structure Selection where
  table : Table
  items : List (Column × Shown)
  filter : RowFilter

def itemSql (c : Column) (s : Shown) : String :=
  s.sql c (some queryAlias) ++ " AS " ++ Sql.identifier c.name

def Selection.sql (q : Selection) : String :=
  "SELECT " ++ Text.join ", " (q.items.map fun e => itemSql e.1 e.2) ++
    " FROM " ++ q.table.path.sql ++ " AS " ++ Sql.identifier queryAlias ++
    " WHERE " ++ q.filter.sql

section Afresh

variable (m : Model) (roles : Roles)

def selectableTable (path : TablePath) : Except Fault Table :=
  match m.table path with
  | .error _ => .error (.failed (.hiddenTable path))
  | .ok t =>
      if !(decide m roles (.table t) .enumerate != .deny) then
        .error (.failed (.hiddenTable path))
      else if decide m roles (.table t) .select = .deny then
        .error (.failed (.selectDeniedOnTable t.path))
      else .ok t

def shownItems : List Column → Except Fault (List (Column × Shown))
  | [] => .ok []
  | c :: rest =>
      if decide m roles (.column c) .select = .deny then shownItems rest
      else do
        let s ← columnShown m roles c (some queryAlias) .select
        return (c, s) :: (← shownItems rest)

/-- The query, by the decisions made afresh. -/
def selection (path : TablePath) : Except Fault Selection := do
  let t ← selectableTable m roles path
  let items ← shownItems m roles t.columns
  if items.isEmpty then throw (.failed (.nothingSelectable t.path))
  else
    let filter ←
      (rowFilter m roles t (some queryAlias) .select).mapError .failed
    return ⟨t, items, filter⟩

end Afresh

theorem selectableTable_eq_ok {m : Model} {roles : Roles} {path : TablePath}
    {t : Table} (h : selectableTable m roles path = .ok t) :
    m.table? path = some t ∧ decide m roles (.table t) .select ≠ .deny := by
  unfold selectableTable at h
  cases htable : m.table path with
  | error e =>
      rw [htable] at h
      cases h
  | ok t' =>
      simp only [htable] at h
      by_cases hhidden : (!(decide m roles (.table t') .enumerate != .deny)) =
          true
      · rw [if_pos hhidden] at h
        cases h
      · rw [if_neg hhidden] at h
        by_cases hdeny : decide m roles (.table t') .select = .deny
        · rw [if_pos hdeny] at h
          cases h
        · rw [if_neg hdeny] at h
          cases h
          exact ⟨Model.table_eq_ok_iff.1 htable, hdeny⟩

section Faithful

variable {models : Nat → Model} {roles : Roles} {ask : Ask (StateM Context)}
  {m : Model} (hask : Answers models roles ask m)

include hask

theorem selectable_evaluates (hm : m.Addressable) (path : TablePath) :
    Evaluates models roles (selectable ask m path).run
      (selectableTable m roles path) := by
  unfold selectable selectableTable
  cases htable : m.table path with
  | error e => exact .pure _
  | ok t =>
      have ht := hm.holds_of_tableOf?
        (hm.tableOf?_of_table? (Model.table_eq_ok_iff.1 htable))
      refine .bindOk (.liftOk (hask.isVisible ht)) ?_
      by_cases hhidden : (!(decide m roles (.table t) .enumerate != .deny)) =
          true
      · simp only [if_pos hhidden]
        exact .pure _
      · simp only [if_neg hhidden]
        refine .bindOk (.liftOk (hask ht .select)) ?_
        by_cases hdeny : decide m roles (.table t) .select = .deny
        · simp only [if_pos hdeny]
          exact .pure _
        · simp only [if_neg hdeny]
          exact .pure _

theorem items_evaluates (hm : m.Addressable) {columns : List Column}
    (hcolumns : ∀ c ∈ columns, m.Holds (.column c)) :
    Evaluates models roles (items ask m roles columns).run
      ((shownItems m roles columns).map
        (·.map fun e => itemSql e.1 e.2)) := by
  induction columns with
  | nil => exact .pure _
  | cons c rest ih =>
      have hc := hcolumns c List.mem_cons_self
      have hrest := ih fun c' hc' => hcolumns c' (List.mem_cons_of_mem _ hc')
      unfold items shownItems
      refine .bindOk (.liftOk (hask hc .select)) ?_
      by_cases hdeny : decide m roles (.column c) .select = .deny
      · simp only [if_pos hdeny]
        exact hrest
      · simp only [if_neg hdeny]
        have hitem : Evaluates models roles
            (selectItem ask m roles c (some queryAlias) .select)
            ((columnShown m roles c (some queryAlias) .select).map
              (itemSql c)) := by
          have hvalue :=
            compileColumn_projection hask hm hc (some queryAlias) .select
          refine .bind hvalue ?_
          cases columnShown m roles c (some queryAlias) .select with
          | error e => exact .pure _
          | ok s => exact .pure _
        cases hshown : columnShown m roles c (some queryAlias) .select with
        | error e =>
            rw [hshown] at hitem
            exact .bindError hitem
        | ok s =>
            rw [hshown] at hitem
            refine .bindOk hitem ?_
            cases hitems : shownItems m roles rest with
            | error e =>
                rw [hitems] at hrest
                exact .bindError hrest
            | ok shownRest =>
                rw [hitems] at hrest
                exact .bindOk hrest (.pure _)

theorem select_evaluates (hm : m.Addressable) (path : TablePath) :
    Evaluates models roles (select ask m roles path).run
      ((selection m roles path).map Selection.sql) := by
  unfold select selection
  have hselectable := selectable_evaluates hask hm path
  cases htable : selectableTable m roles path with
  | error e =>
      rw [htable] at hselectable
      exact .bindError hselectable
  | ok t =>
      rw [htable] at hselectable
      refine .bindOk hselectable ?_
      change Evaluates models roles _
        (Except.map Selection.sql (shownItems m roles t.columns >>= _))
      have ht := hm.tableOf?_of_table? (selectableTable_eq_ok htable).1
      have hitems := items_evaluates hask hm fun _ hc =>
        hm.holds_of_mem_columns ht hc
      cases hshown : shownItems m roles t.columns with
      | error e =>
          rw [hshown] at hitems
          exact .bindError hitems
      | ok shown =>
          rw [hshown] at hitems
          refine .bindOk hitems ?_
          have hfilter := compileTable_filter hask (hm.holds_of_tableOf? ht)
            (some queryAlias) .select
          cases shown with
          | nil => exact .pure _
          | cons item rest =>
              refine .bindOk (.liftOk hfilter) ?_
              cases rowFilter m roles t (some queryAlias) .select with
              | error e => exact .pure _
              | ok filter => exact .pure _

end Faithful

/-! ## Exactness -/

/-- The query shows a requester what is granted, and nothing else. -/
structure Selection.Exact (q : Selection) (m : Model) (roles : Roles) :
    Prop where
  /-- There is an item for each column that is not denied. -/
  columns : q.items.map Prod.fst =
    q.table.columns.filter fun c => decide m roles (.column c) .select ≠ .deny
  /-- The filter admits the rows that are granted. -/
  rows : ∀ truth : Assignment, q.filter.Admits truth ↔
    TableGranted m roles q.table (some queryAlias) .select truth
  /-- On an admitted row, columns that are granted are shown, and null is shown
  in place of the others. -/
  cells : ∀ truth : Assignment, q.filter.Admits truth →
    ∀ c s, (c, s) ∈ q.items → ∀ {α : Type} (value : Option α),
      (ColumnGranted m roles q.table (some queryAlias) .select truth c →
          s.cell truth value = value) ∧
        (¬ ColumnGranted m roles q.table (some queryAlias) .select truth c →
          s.cell truth value = none)
  /-- On an admitted row, a column without a guard shows nothing that its guard
  would hide. -/
  unguarded : ∀ truth : Assignment, q.filter.Admits truth →
    ∀ c, (c, .always) ∈ q.items →
      listed (c.aclFor? m q.table) roles .select = false →
        ∀ conditions,
          columnConditions m roles c (some queryAlias) .select =
              .ok conditions →
            ∀ {α : Type} (value : Option α),
              (shown conditions).cell truth value = value

variable {m : Model} {roles : Roles}

theorem shownItems_eq_ok {columns : List Column}
    {items : List (Column × Shown)}
    (h : shownItems m roles columns = .ok items) :
    (items.map Prod.fst =
        columns.filter fun c => decide m roles (.column c) .select ≠ .deny) ∧
      ∀ c s, (c, s) ∈ items →
        Shows m roles c (some queryAlias) .select s := by
  induction columns generalizing items with
  | nil =>
      cases h
      exact ⟨rfl, nofun⟩
  | cons c rest ih =>
      unfold shownItems at h
      by_cases hdeny : decide m roles (.column c) .select = .deny
      · rw [if_pos hdeny] at h
        rw [List.filter_cons_of_neg (by simp [hdeny])]
        exact ih h
      · rw [if_neg hdeny] at h
        obtain ⟨s, hs, h⟩ := bind_eq_ok.1 h
        obtain ⟨others, hothers, h⟩ := bind_eq_ok.1 h
        cases h
        obtain ⟨hcolumns, hshows⟩ := ih hothers
        rw [List.filter_cons_of_pos (by simp [hdeny]), List.map_cons, hcolumns]
        refine ⟨rfl, fun c' s' hmem => ?_⟩
        rcases List.mem_cons.1 hmem with heq | hmem
        · cases heq
          exact shows_of_columnShown hs
        · exact hshows c' s' hmem

theorem selection_exact (hm : m.Addressable) {path : TablePath} {q : Selection}
    (h : selection m roles path = .ok q) :
    m.table? path = some q.table ∧ q.Exact m roles := by
  obtain ⟨t, ht, h⟩ := bind_eq_ok.1 h
  obtain ⟨items, hitems, h⟩ := bind_eq_ok.1 h
  by_cases hempty : items.isEmpty = true
  · rw [if_pos hempty] at h
    cases h
  rw [if_neg hempty] at h
  obtain ⟨filter, hfilter, h⟩ := bind_eq_ok.1 h
  cases h
  obtain ⟨htable, hdeny⟩ := selectableTable_eq_ok ht
  obtain ⟨hcolumns, hshows⟩ := shownItems_eq_ok hitems
  have hrows : ∀ truth : Assignment, filter.Admits truth ↔
      TableGranted m roles t (some queryAlias) .select truth :=
    fun truth => rowFilter_admits_iff (mapError_eq_ok.1 hfilter) hdeny
  have hpath := hm.tableOf?_of_table? htable
  have hown : ∀ c s, (c, s) ∈ items → m.tableOf? c.table = some t := by
    intro c s hmem
    have hc : c ∈ items.map Prod.fst := List.mem_map_of_mem hmem
    rw [hcolumns] at hc
    rw [(hm.tableOf?_named hpath).column_table c (List.mem_of_mem_filter hc)]
    exact hpath
  refine ⟨htable, hcolumns, hrows, ?_, ?_⟩
  · intro truth hadmits c s hmem α value
    exact (hshows c s hmem).cell (hown c s hmem) hdeny
      ((hrows truth).1 hadmits) value
  · intro truth hadmits c hmem hunlisted conditions hconditions α value
    exact (hshows c _ hmem).guard_cell (hown c _ hmem) hdeny
      ((hrows truth).1 hadmits) hunlisted hconditions value

end GovernedCatalog.Query

/-!
## Queries of a catalog

A catalog publishes introspected models only, so its queries are exact for every
requester, whatever the requester's context was used for before.
-/

namespace GovernedCatalog

namespace Catalog

/-- The catalog after a refresh, which is the one before if it fails. -/
def refreshed (c : Catalog) (reader : Reader) : Catalog :=
  match c.refresh reader with
  | .ok c' => c'
  | .error _ => c

/-- The catalog after some refreshes. -/
def after (c : Catalog) (readers : List Reader) : Catalog :=
  readers.foldl refreshed c

theorem fresh_addressable (settings : Settings) :
    (fresh settings).cell.model.Addressable where
  schema_name h := by cases h
  table h := by cases h
  system_table h := by cases h
  system_apart := rfl

theorem refreshed_addressable {c : Catalog} (hc : c.cell.model.Addressable)
    (reader : Reader) : (c.refreshed reader).cell.model.Addressable := by
  unfold refreshed
  cases hrefresh : c.refresh reader with
  | error e => exact hc
  | ok c' =>
      obtain ⟨result, hresult, h⟩ := bind_eq_ok.1 hrefresh
      cases h
      exact Introspection.run_ensures reader c.settings result hresult

theorem after_addressable {c : Catalog} (hc : c.cell.model.Addressable)
    (readers : List Reader) : (c.after readers).cell.model.Addressable := by
  induction readers generalizing c with
  | nil => exact hc
  | cons reader rest ih => exact ih (refreshed_addressable hc reader)

/-- A query that a catalog gives shows its requester exactly what is granted,
whatever snapshots their context was used for before. -/
theorem select_exact (settings : Settings) (readers : List Reader) {c : Catalog}
    (hc : c = (fresh settings).after readers) (roles : Roles) {uses : List Use}
    (huses : Coherent uses)
    (hversion : ∀ s ∈ uses.flatMap Use.snapshots,
      s.stamp = c.version → s.model = c.cell.model)
    {path : TablePath} {sql : String}
    (h : (c.select ((Context.fresh roles).after uses) path).1 = .ok sql) :
    ∃ q : Query.Selection, c.cell.model.table? path = some q.table ∧
      sql = q.sql ∧ q.Exact c.cell.model roles := by
  have hm : c.cell.model.Addressable := by
    rw [hc]
    exact after_addressable (fresh_addressable settings) readers
  have hcoherent : Coherent (.bind c.cell.snapshot :: uses) :=
    huses.cons_bind hm hversion
  have hmodel := hcoherent.modelOf_stamp (s := c.cell.snapshot)
    (List.mem_flatMap.2 ⟨_, List.mem_cons_self, List.mem_singleton_self _⟩)
  have hctx := hcoherent.after (fun _ hu => List.mem_cons_of_mem _ hu)
    (Context.Faithful.fresh _ roles)
  have hselect := Query.select_evaluates
    (c.cell.snapshot.answers hm hmodel roles) hm path _
      (hctx.bind c.cell.snapshot.stamp)
  have hresult : (Query.selection c.cell.model roles path).map
      Query.Selection.sql = .ok sql := by
    refine hselect.1.symm.trans (Eq.trans ?_ h)
    unfold select Snapshot.evaluate
    rw [hctx.roles_eq]
    rfl
  obtain ⟨q, hq, hsql⟩ := map_eq_ok.1 hresult
  obtain ⟨htable, hexact⟩ := Query.selection_exact hm hq
  exact ⟨q, htable, hsql.symm, hexact⟩

/-- A diary whose days are for everyone, and whose texts are for their writers
only. -/
def diary : Reader where
  schemas := .ok [⟨"home", none⟩]
  columns := .ok
    [{ table := ⟨"home", "diary"⟩
       kind := "table"
       comment := none
       names := ["day", "writer", "text"]
       defaults := []
       types := ["date", "text", "text"]
       elementTypes := []
       domainBases := []
       comments := []
       notNulls := [] }]
  tables := .ok []
  uniques := .ok []
  foreignKeys := .ok []
  tableExists _ := .ok true
  annotations _ := .ok []
  acls
    | .catalog => .ok [⟨nowhere, "enumerate", ["*"]⟩]
    | _ => .ok []
  bindings
    | .table => .ok
        [⟨{ nowhere with schema := some "home", table := some "diary" },
          "readers", .enabled ⟨[.select], some (.column "day"), .nonnull, none,
            Binding.everyone⟩⟩]
    | .column => .ok
        [⟨{ nowhere with
              schema := some "home", table := some "diary"
              column := some "text" },
          "readers", .enabled ⟨[.select], some (.column "writer"), .acl, none,
            Binding.everyone⟩⟩]
    | _ => .ok []
  execute _ := .ok ()
where
  nowhere : Dump.Target :=
    ⟨none, none, none, none, none, none, none, none, none, none⟩

theorem select_exact_diary :
    let c := (fresh .standard).after [diary]
    let uses : List Use :=
      [.bind c.cell.snapshot, .ask c.cell.snapshot .catalog .enumerate]
    let ctx := (Context.fresh (.ofList ["ann"])).after uses
    Coherent uses ∧
      ∃ sql, (c.select ctx ⟨"home", "diary"⟩).1 = .ok sql ∧
        ∃ q : Query.Selection,
          c.cell.model.table? ⟨"home", "diary"⟩ = some q.table ∧
            sql = q.sql ∧ q.Exact c.cell.model (.ofList ["ann"]) := by
  intro c uses ctx
  have hsome : (c.select ctx ⟨"home", "diary"⟩).1.toOption.isSome = true := by
    decide +kernel
  obtain ⟨sql, hsql⟩ : ∃ sql, (c.select ctx ⟨"home", "diary"⟩).1 = .ok sql := by
    cases hselect : (c.select ctx ⟨"home", "diary"⟩).1 with
    | ok sql => exact ⟨sql, rfl⟩
    | error f =>
        rw [hselect] at hsome
        cases hsome
  have hsnapshots : ∀ s ∈ uses.flatMap Use.snapshots, s = c.cell.snapshot := by
    simp [uses, Use.snapshots]
  have hcoherent : Coherent uses := {
    stamps := by
      intro s hs s' hs' _
      rw [hsnapshots s hs, hsnapshots s' hs']
    addressable := by
      intro s hs
      rw [hsnapshots s hs]
      exact after_addressable (fresh_addressable _) _
    own := by
      intro s e right h
      simp only [uses, List.mem_cons, reduceCtorEq, Use.ask.injEq,
        List.not_mem_nil, or_false, false_or] at h
      obtain ⟨rfl, rfl, _⟩ := h
      exact List.mem_cons_self }
  refine ⟨hcoherent, sql, hsql, ?_⟩
  refine select_exact .standard [diary] rfl _ hcoherent ?_ hsql
  intro s hs _
  rw [hsnapshots s hs]
  rfl

end Catalog

end GovernedCatalog
