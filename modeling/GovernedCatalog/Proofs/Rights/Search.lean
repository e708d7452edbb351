import GovernedCatalog.Proofs.Rights.Inheritance
import GovernedCatalog.Proofs.Rights.Interleaving

/-!
# Search columns and the memory of a context

The search column of a table is derived for a requester and is no column of the
model.  It has no policy, so it is decided like its table, and the decision is
remembered under its name.  A stored column of the table may have the same name;
it is then answered by what is remembered of the search column.
-/

namespace GovernedCatalog

/-! ## Deriving search columns -/

/-- The texts that a requester sees on every row. -/
def visibleTexts (m : Model) (roles : Roles) (columns : List Column) :
    List String :=
  (columns.filter fun c =>
    c.isText && decide m roles (.column c) .enumerate == .allow).map Column.name

namespace Answers

variable {models : Nat → Model} {roles : Roles} {ask : Ask (StateM Context)}
  {m : Model} (hask : Answers models roles ask m)

include hask

theorem searchSources {columns : List Column}
    (h : ∀ c ∈ columns, m.Holds (.column c)) :
    Evaluates models roles (searchSources ask columns)
      (visibleTexts m roles columns) := by
  induction columns with
  | nil => exact .pure _
  | cons c rest ih =>
      obtain ⟨hc, hrest⟩ := List.forall_mem_cons.1 h
      have hsearchable : Evaluates models roles (isSearchable ask c)
          (c.isText && decide m roles (.column c) .enumerate == .allow) := by
        unfold isSearchable
        cases c.isText with
        | false => exact .pure _
        | true => exact .bind (hask hc .enumerate) (.pure _)
      refine .bind hsearchable ?_
      unfold visibleTexts
      cases hshown : (c.isText &&
          decide m roles (.column c) .enumerate == .allow) with
      | false =>
          rw [List.filter_cons_of_neg (by simp [hshown])]
          exact ih hrest
      | true =>
          rw [List.filter_cons_of_pos (by simp [hshown]), List.map_cons]
          exact .bind (ih hrest) (.pure _)

/-- The search column has the texts that its requester sees afresh. -/
theorem searchColumn (hm : m.Addressable) {t : Table}
    (ht : m.Holds (.table t)) :
    Evaluates models roles (searchColumn ask t)
      (.search t.path (visibleTexts m roles t.columns)) := by
  refine .bind (hask.searchSources fun c hc => ?_) (.pure _)
  exact hm.holds_of_mem_columns (Model.holds_table.1 ht) hc

end Answers

/-! ## Deciding on search columns -/

section Ask

variable {s : Snapshot} (hs : s.model.Addressable) {models : Nat → Model}
  (hmodels : models s.stamp = s.model) {roles : Roles} {t : Table}
  (ht : s.model.Holds (.table t)) (sources : List String) (right : Right)

include hs hmodels ht

/-- A search column is decided like its table unless a decision on a column of its
name is remembered. -/
theorem Snapshot.ask_search {ctx : Context} (hctx : ctx.Faithful models roles) :
    let c := Column.search t.path sources
    let key := s.memoKey (.column c) right
    ∃ ctx' : Context, ctx'.Faithful models roles ∧
      (s.ask roles (.column c) right).run ctx =
        match ctx.remembered? key with
        | some d => (d, ctx)
        | none =>
            (decide s.model roles (.table t) right,
              ctx'.remember key (decide s.model roles (.table t) right)) := by
  intro c key
  rw [← hmodels] at hs
  obtain ⟨rule, heq, hrule⟩ : ∃ rule : StateM Context Decision,
      Rule.onColumn (recallFrom s.stamp) (models s.stamp) roles c right =
          recallFrom s.stamp (.column c.table c.name) right rule ∧
        Evaluates models roles rule
          (decide (models s.stamp) roles (.column c) right) :=
    Evaluates.exists_onColumn_eq hs c
  obtain ⟨hdecide, hafter⟩ := hrule ctx hctx
  rw [hmodels] at heq hdecide
  rw [decide_bare_column (Model.holds_table.1 ht) rfl rfl] at hdecide
  refine ⟨(rule.run ctx).2, hafter, ?_⟩
  have hrun : (s.ask roles (.column c) right).run ctx =
      (recallFrom s.stamp (.column c.table c.name) right rule).run ctx :=
    congrArg (fun x => x.run ctx) heq
  rw [hrun, recallFrom_run, hdecide]
  rfl

end Ask

/-- The decision on a table may be remembered of its search column if it is also
the decision on a stored column of that name. -/
theorem Context.Faithful.remember_search {ctx : Context}
    {models : Nat → Model} {roles : Roles} (hctx : ctx.Faithful models roles)
    {s : Snapshot} {t : Table} (ht : s.model.Holds (.table t))
    (hmodels : models s.stamp = s.model) {sources : List String} {right : Right}
    (hsame : ∀ c, t.column? Column.searchName = some c →
      decide s.model roles (.column c) right =
        decide s.model roles (.table t) right) :
    (ctx.remember (s.memoKey (.column (.search t.path sources)) right)
      (decide s.model roles (.table t) right)).Faithful models roles := by
  refine hctx.remember_of fun {e} he haddress => ?_
  -- Whatever has the address is a stored column with the name.
  change (models s.stamp).entityAt? e.address = some e at he
  change _ = decide (models s.stamp) roles e right
  rw [hmodels, haddress] at he
  rw [hmodels]
  obtain ⟨t', ht', he⟩ := Option.bind_eq_some_iff.1 he
  obtain ⟨c, hc, rfl⟩ := Option.map_eq_some_iff.1 he
  cases (Model.holds_table.1 ht).symm.trans ht'
  exact (hsame c hc).symm

/-! ## Questions about search columns among others -/

/-- Uses of a context, and the derivation of search columns and questions about
these. -/
inductive Turn where
  | use (u : Use)
  | derive (s : Snapshot) (t : Table)
  /-- The column may have been derived earlier, or for others. -/
  | search (s : Snapshot) (t : Table) (sources : List String) (right : Right)

namespace Turn

/-- The answers to a use, and the context after the turn. -/
def apply (ctx : Context) : Turn → List Decision × Context
  | use u => u.apply ctx
  | derive s t => ([], ((searchColumn (s.ask ctx.roles) t).run ctx).2)
  | search s t sources right =>
      let c := Column.search t.path sources
      ([], ((s.ask ctx.roles (.column c) right).run ctx).2)

def use? : Turn → Option Use
  | use u => some u
  | derive _ _ | search _ _ _ _ => none

/-- The use that a turn is, or the question about the table of its column. -/
def base : Turn → Use
  | use u => u
  | derive s t => .ask s (.table t) .enumerate
  | search s t _ right => .ask s (.table t) right

/-- A stored column with the name of search columns is decided like its table. -/
def Harmless (roles : Roles) : Turn → Prop
  | use _ | derive _ _ => True
  | search s t _ right => ∀ c, t.column? Column.searchName = some c →
      decide s.model roles (.column c) right =
        decide s.model roles (.table t) right

end Turn

/-- The answers to the uses of a context, with other turns among them. -/
def Context.answersAmong (ctx : Context) : List Turn → List Decision
  | [] => []
  | turn :: rest => (turn.apply ctx).1 ++ answersAmong (turn.apply ctx).2 rest

section Turns

variable {turns : List Turn} (h : Coherent (turns.map Turn.base))
  {roles : Roles} {ctx : Context}

include h

/-- A harmless turn leaves a faithful context faithful, and gets the answers that a
fresh context gives. -/
theorem Turn.apply_faithful {turn : Turn} (hturn : turn ∈ turns)
    (hharmless : turn.Harmless roles)
    (hctx : ctx.Faithful
      (modelOf ((turns.map Turn.base).flatMap Use.snapshots)) roles) :
    (turn.apply ctx).1 = turn.use?.toList.flatMap (Use.answers roles) ∧
      (turn.apply ctx).2.Faithful
        (modelOf ((turns.map Turn.base).flatMap Use.snapshots)) roles := by
  have hbase : turn.base ∈ turns.map Turn.base := List.mem_map_of_mem hturn
  have hsnapshots : ∀ s ∈ turn.base.snapshots,
      s ∈ (turns.map Turn.base).flatMap Use.snapshots :=
    fun s hs => List.mem_flatMap.2 ⟨_, hbase, hs⟩
  cases turn with
  | use u =>
      obtain ⟨hanswers, hafter⟩ := h.apply hbase hctx
      exact ⟨hanswers.trans (List.append_nil _).symm, hafter⟩
  | derive s t =>
      have hs := hsnapshots s (List.mem_singleton_self s)
      have hm := h.addressable s hs
      have ht := hm.holds_of_mem_entities (h.own hbase)
      have hask : Answers _ roles (s.ask roles) s.model :=
        s.answers hm (h.modelOf_stamp hs) roles
      refine ⟨rfl, ?_⟩
      change ((searchColumn (s.ask ctx.roles) t).run ctx).2.Faithful _ _
      rw [hctx.roles_eq]
      exact (hask.searchColumn hm ht ctx hctx).2
  | search s t sources right =>
      have hs := hsnapshots s (List.mem_singleton_self s)
      have hm := h.addressable s hs
      have hmodel := h.modelOf_stamp hs
      have ht := hm.holds_of_mem_entities (h.own hbase)
      obtain ⟨ctx', hctx', hrun⟩ := s.ask_search hm hmodel ht sources right hctx
      refine ⟨rfl, ?_⟩
      change ((s.ask ctx.roles _ right).run ctx).2.Faithful _ _
      rw [hctx.roles_eq, hrun]
      cases ctx.remembered? _ with
      | some d => exact hctx
      | none =>
          exact hctx'.remember_search ht hmodel hharmless

theorem Turn.answersAmong_eq {rest : List Turn}
    (hrest : ∀ turn ∈ rest, turn ∈ turns)
    (hharmless : ∀ turn ∈ rest, turn.Harmless roles)
    (hctx : ctx.Faithful
      (modelOf ((turns.map Turn.base).flatMap Use.snapshots)) roles) :
    ctx.answersAmong rest =
      (rest.filterMap Turn.use?).flatMap (Use.answers roles) := by
  induction rest generalizing ctx with
  | nil => rfl
  | cons turn rest ih =>
      obtain ⟨hturn, hrest⟩ := List.forall_mem_cons.1 hrest
      obtain ⟨hfirst, hharmless⟩ := List.forall_mem_cons.1 hharmless
      obtain ⟨hanswers, hafter⟩ := Turn.apply_faithful h hturn hfirst hctx
      rw [Context.answersAmong, hanswers, ih hrest hharmless hafter]
      cases hu : turn.use? <;> simp [hu]

end Turns

/-- After a question about the search column, a stored column of the same name is
answered like the table. -/
theorem Turn.answersAmong_search {s : Snapshot} (hs : s.model.Addressable)
    {roles : Roles} {t : Table} (ht : s.model.Holds (.table t)) {c : Column}
    (hc : t.column? Column.searchName = some c) (sources : List String)
    (right : Right) :
    (Context.fresh roles).answersAmong
        [.search s t sources right, .use (.ask s (.column c) right)] =
      [decide s.model roles (.table t) right] := by
  have hctx := Context.Faithful.fresh (fun _ => s.model) roles
  have hmodel : (fun _ => s.model) s.stamp = s.model := rfl
  obtain ⟨ctx', hctx', hrun⟩ := s.ask_search hs hmodel ht sources right hctx
  obtain ⟨hmem, hname⟩ := Table.column?_eq_some hc
  have htable := (hs.tableOf?_named (Model.holds_table.1 ht)).column_table c hmem
  -- Both columns have one address.
  have hkey : s.memoKey (.column (.search t.path sources)) right =
      s.memoKey (.column c) right := by
    change (⟨s.stamp, .column t.path Column.searchName, right⟩ : MemoKey) =
      ⟨s.stamp, .column c.table c.name, right⟩
    rw [htable, hname]
  rw [hkey] at hrun
  have hafter : (Turn.apply (Context.fresh roles)
        (.search s t sources right)).2 =
      ctx'.remember (s.memoKey (.column c) right)
        (decide s.model roles (.table t) right) :=
    congrArg Prod.snd hrun
  have hanswer := s.ask_of_remembered roles
    ((Context.remembered?_remember ctx' (s.memoKey (.column c) right) _
      (decide s.model roles (.table t) right)).trans (if_pos rfl))
  rw [Context.answersAmong, hafter]
  change [((s.ask ctx'.roles (.column c) right).run _).1] = _
  rw [hctx'.roles_eq, hanswer]

/-- Questions about search columns leave all other answers of a context as they are
in fresh contexts while stored columns with the name of search columns are decided
like their tables.  Where one is not, it is answered like its table after a question
about the search column. -/
theorem Turn.answersAmong_afresh (roles : Roles) :
    (∀ turns : List Turn, Coherent (turns.map base) →
      (∀ turn ∈ turns, turn.Harmless roles) →
        (Context.fresh roles).answersAmong turns =
          (turns.filterMap use?).flatMap (Use.answers roles)) ∧
    ∀ (s : Snapshot) (t : Table) (sources : List String) (right : Right),
      s.model.Addressable → s.model.Holds (.table t) →
      ¬(Turn.search s t sources right).Harmless roles →
        ∃ c, t.column? Column.searchName = some c ∧
          let turns : List Turn :=
            [.search s t sources right, .use (.ask s (.column c) right)]
          Coherent (turns.map base) ∧
            (Context.fresh roles).answersAmong turns =
              [decide s.model roles (.table t) right] ∧
            (turns.filterMap use?).flatMap (Use.answers roles) =
              [decide s.model roles (.column c) right] ∧
            decide s.model roles (.column c) right ≠
              decide s.model roles (.table t) right := by
  constructor
  · intro turns h hharmless
    exact Turn.answersAmong_eq h (fun _ hturn => hturn) hharmless
      (Context.Faithful.fresh _ roles)
  intro s t sources right hs ht hharmful
  obtain ⟨c, hc, hne⟩ : ∃ c, t.column? Column.searchName = some c ∧
      decide s.model roles (.column c) right ≠
        decide s.model roles (.table t) right := by
    simpa [Harmless] using hharmful
  have htable := Model.holds_table.1 ht
  have hmemTable : Entity.table t ∈ s.model.entities.map Prod.snd :=
    Model.mem_entities_of_tableOf? htable List.mem_cons_self
  have hmemColumn : Entity.column c ∈ s.model.entities.map Prod.snd :=
    Model.mem_entities_of_entityAt? (hs.holds_of_column? htable hc)
  refine ⟨c, hc, ?_, Turn.answersAmong_search hs ht hc sources right, ?_, hne⟩
  · refine Coherent.alone hs (by simp [base, Use.snapshots]) fun {e _} hask => ?_
    simp only [List.map_cons, List.map_nil, base, List.mem_cons,
      Use.ask.injEq, true_and, List.not_mem_nil, or_false] at hask
    rcases hask with ⟨rfl, -⟩ | ⟨rfl, -⟩
    · exact hmemTable
    · exact hmemColumn
  · change [((s.ask roles (.column c) right).run (Context.fresh roles)).1] = _
    rw [s.ask_fresh hs hmemColumn roles right]

/-- Books that everyone reads, with a column that no one does and that is named
like a search column. -/
def library : Model :=
  ((Model.fresh "sys").after changes).setAcls .catalog
    (.ofList [(.enumerate, ["*"]), (.select, ["*"])])
where
  books : TablePath := ⟨"library", "books"⟩
  changes : List Change :=
    [.ensureSchema "library",
      .addTable "library" (.fresh "library" "books" .table),
      .addColumn books (.stored books "title" 0 .text none),
      .addColumn books { Column.stored books "*" 1 .text none with
        acls := .ofList [(.select, [])] }]
  table : Table := (((Model.fresh "sys").after changes).table? books).getD
    (.fresh "library" "books" .table)
  column : Column := (table.column? "*").getD (.stored books "*" 1 .text none)

theorem library_addressable : library.Addressable := by
  have hbuilt : ∀ c ∈ library.changes, c.WellBuilt := by
    simp [library.changes, library.books, Change.WellBuilt, Table.fresh,
      Column.stored]
  have hclosed := Model.after_closed (Model.fresh_closed "sys") hbuilt
  exact {
    toNamed := (hclosed.setAcls _ _).named
    system_table := fun h => by cases h
    system_apart := rfl }

theorem library_holds : library.Holds (.table library.table) := rfl

/-- The search column is harmless to ask about for its visibility. -/
def libraryTurns : List Turn :=
  let s : Snapshot := ⟨1, library⟩
  [.derive s library.table,
    .search s library.table ["title", "*"] .enumerate,
    .use (.ask s (.column library.column) .enumerate),
    .use (.ask s (.column library.column) .select)]

theorem Turn.answersAmong_afresh_library :
    let s : Snapshot := ⟨1, library⟩
    let read : Turn := .search s library.table ["title", "*"] .select
    Coherent (libraryTurns.map base) ∧
      (∀ turn ∈ libraryTurns, turn.Harmless {}) ∧
      (Context.fresh {}).answersAmong libraryTurns =
        (libraryTurns.filterMap use?).flatMap (Use.answers {}) ∧
      library.Addressable ∧ library.Holds (.table library.table) ∧
      ¬read.Harmless {} ∧
      ∃ c, library.table.column? Column.searchName = some c ∧
        (Context.fresh {}).answersAmong
          [read, .use (.ask s (.column c) .select)] = [.allow] := by
  intro s read
  have hmemTable : Entity.table library.table ∈ library.entities.map Prod.snd :=
    Model.mem_entities_of_entityAt? library_holds
  have hmemColumn :
      Entity.column library.column ∈ library.entities.map Prod.snd :=
    Model.mem_entities_of_entityAt?
      (show library.entityAt? (.column library.books "*") = some _ from rfl)
  have hcoherent : Coherent (libraryTurns.map base) := by
    refine Coherent.alone (s := s) library_addressable
      (by simp [libraryTurns, base, Use.snapshots, s]) fun {e _} hask => ?_
    simp only [libraryTurns, List.map_cons, List.map_nil, base, List.mem_cons,
      Use.ask.injEq, true_and, List.not_mem_nil, or_false, s] at hask
    rcases hask with ⟨rfl, -⟩ | ⟨rfl, -⟩ | ⟨rfl, -⟩ | ⟨rfl, -⟩
    · exact hmemTable
    · exact hmemTable
    · exact hmemColumn
    · exact hmemColumn
  have hharmless : ∀ turn ∈ libraryTurns, turn.Harmless {} := by
    intro turn hturn
    simp only [libraryTurns, List.mem_cons, List.not_mem_nil, or_false] at hturn
    rcases hturn with rfl | rfl | rfl | rfl
    · trivial
    · rintro c hc
      cases hc
      decide +kernel
    · trivial
    · trivial
  have hharmful : ¬read.Harmless {} := by
    intro h
    have hsame := h library.column rfl
    revert hsame
    decide +kernel
  obtain ⟨hafresh, hobserved⟩ := Turn.answersAmong_afresh {}
  obtain ⟨c, hc, -, hanswer, -⟩ := hobserved s library.table ["title", "*"]
    .select library_addressable library_holds hharmful
  refine ⟨hcoherent, hharmless, hafresh libraryTurns hcoherent hharmless,
    library_addressable, library_holds, hharmful, c, hc, hanswer.trans ?_⟩
  decide +kernel

/-- Whoever asks about the derived search column first may read the column that no
one may. -/
theorem Turn.library_poisoned :
    let s : Snapshot := ⟨1, library⟩
    let derived := (searchColumn (s.ask {}) library.table).run (.fresh {})
    library.Addressable ∧ library.column ∈ library.table.columns ∧
      derived.1 = .search library.table.path ["title", "*"] ∧
      s.decision {} (.column library.column) .select = .deny ∧
      (Context.fresh {}).answersAmong
        [.use (.bind s), .derive s library.table,
          .search s library.table ["title", "*"] .select,
          .use (.ask s (.column library.column) .select)] = [.allow] := by
  intro s derived
  have hcolumn : library.table.column? "*" = some library.column := rfl
  exact ⟨library_addressable, (Table.column?_eq_some hcolumn).1, rfl,
    by decide +kernel, by decide +kernel⟩

end GovernedCatalog
