import GovernedCatalog.Proofs.Catalog.Query
import GovernedCatalog.Proofs.Guard.Contract
import GovernedCatalog.Proofs.Rights.Render

/-!
# Visits to a catalog

A requester visits a catalog with a context, any number of times and across any
number of refreshes.  No query calls the guards' compiler for a denied column,
and none meets a row-dependent table or column without conditions.
-/

namespace GovernedCatalog

namespace Query

open Guard

section Heeds

variable (s : Snapshot) (roles : Roles)

theorem selectable_heeds (path : TablePath) :
    Heeds (fun _ => True) (selectable (s.ask roles) s.model path)
      fun _ _ => True := by
  unfold selectable
  cases s.model.table path with
  | error e => exact .fail
  | ok t =>
      exact .after fun _ => .ite (fun _ => .fail) fun _ =>
        .after fun _ => .ite (fun _ => .fail) fun _ => .pure fun _ _ => trivial

theorem items_heeds (columns : List Column) :
    Heeds (fun _ => True) (items (s.ask roles) s.model roles columns)
      fun _ _ => True := by
  induction columns with
  | nil => exact .pure fun _ _ => trivial
  | cons c rest ih =>
      refine (heeds_ask s).bind fun d => .ite (fun _ => ih.always) fun hd => ?_
      exact (selectItem_heeds s hd s.model _).bind fun item =>
        ih.always.bind fun _ => .pure fun _ _ => trivial

/-- In no context does a query for a table misuse the compiler. -/
theorem select_heeds (path : TablePath) :
    Heeds (fun _ => True) (select (s.ask roles) s.model roles path)
      fun _ _ => True := by
  have hfilter : ∀ filter : Except Error String, Heeds (fun _ => True)
      (ExceptT.mk (pure (filter.mapError .failed))) fun _ _ => True :=
    fun filter => .mk fun _ _ => ⟨fun _ => trivial, fun _ => isMisuse_of_failed⟩
  exact (selectable_heeds s roles path).bind fun t =>
    (items_heeds s roles t.columns).bind fun items =>
      .ite (fun _ => .fail) fun _ => .after fun filter =>
        (hfilter filter).bind fun _ => .pure fun _ _ => trivial

/-- In no context does a query for a column misuse the compiler. -/
theorem column_heeds (path : TablePath) (name : String) :
    Heeds (fun _ => True) (column (s.ask roles) s.model roles path name)
      fun _ _ => True := by
  refine (selectable_heeds s roles path).bind fun t => ?_
  cases t.column? name with
  | none => exact .fail
  | some c =>
      refine .after fun _ => .ite (fun _ => .fail) fun _ =>
        (heeds_ask s).bind fun d => .ite (fun _ => .fail) fun hd => ?_
      exact (compileColumn_heeds s hd s.model _ .projection).bind fun _ =>
        (compileColumn_heeds s hd s.model _ .predicate).bind fun _ =>
          .pure fun _ _ => trivial

end Heeds

section Insists

variable {models : Nat → Model} {roles : Roles} {ask : Ask (StateM Context)}
  {m : Model} (hask : Answers models roles ask m) (hm : m.Addressable)

include hask hm

theorem selectable_insists (path : TablePath) :
    Insists models roles
      (selectable (insisting m roles (some queryAlias) ask) m path).run
      (selectable ask m path).run
      fun outcome => Ensures outcome fun t => m.table? path = some t := by
  unfold selectable
  cases htable : m.table path with
  | error e => exact .pure .error
  | ok t =>
      have hpath := Model.table_eq_ok_iff.1 htable
      have ht := hm.holds_of_tableOf? (hm.tableOf?_of_table? hpath)
      refine (isVisible_insists hask ht).liftOk.bindOk fun visible _ => ?_
      cases visible with
      | false => exact .pure .error
      | true =>
          refine (insisting_insists hask ht .select).liftOk.bindOk fun d _ => ?_
          by_cases hd : d = .deny
          · rw [if_pos hd, if_pos hd]
            exact .pure .error
          · rw [if_neg hd, if_neg hd]
            exact .pure (.ok hpath)

theorem selectItem_insists {c : Column} (hc : m.Holds (.column c)) :
    Insists models roles
      (selectItem (insisting m roles (some queryAlias) ask) m roles c
        (some queryAlias) .select)
      (selectItem ask m roles c (some queryAlias) .select) fun _ => True :=
  (compileColumn_insists hask hm hc _ _ _).bind fun _ _ => .pure trivial

theorem items_insists {columns : List Column}
    (hcolumns : ∀ c ∈ columns, m.Holds (.column c)) :
    Insists models roles
      (items (insisting m roles (some queryAlias) ask) m roles columns).run
      (items ask m roles columns).run
      fun outcome => Ensures outcome fun _ => True := by
  induction columns with
  | nil => exact .pure (.ok trivial)
  | cons c rest ih =>
      obtain ⟨hc, hrest⟩ := List.forall_mem_cons.1 hcolumns
      unfold items
      refine (insisting_insists hask hc .select).liftOk.bindOk fun d _ => ?_
      by_cases hd : d = .deny
      · rw [if_pos hd, if_pos hd]
        exact ih hrest
      · rw [if_neg hd, if_neg hd]
        exact (selectItem_insists hask hm hc).mkOk.bindOk fun item _ =>
          (ih hrest).bindOk fun others _ => .pure (.ok trivial)

theorem select_insists (path : TablePath) :
    Insists models roles
      (select (insisting m roles (some queryAlias) ask) m roles path).run
      (select ask m roles path).run
      fun outcome => Ensures outcome fun _ => True := by
  unfold select
  refine (selectable_insists hask hm path).bindOk fun t htable => ?_
  have ht := hm.tableOf?_of_table? htable
  refine (items_insists hask hm fun _ hc =>
    hm.holds_of_mem_columns ht hc).bindOk fun items _ => ?_
  cases items with
  | nil => exact .pure .error
  | cons item rest =>
      refine (compileTable_insists hask (hm.holds_of_tableOf? ht) _ _).liftOk.bindOk
        fun filter _ => ?_
      cases filter with
      | error e => exact .pure .error
      | ok filter => exact .pure (.ok trivial)

theorem column_insists (path : TablePath) (name : String) :
    Insists models roles
      (column (insisting m roles (some queryAlias) ask) m roles path name).run
      (column ask m roles path name).run
      fun outcome => Ensures outcome fun _ => True := by
  unfold column
  refine (selectable_insists hask hm path).bindOk fun t htable => ?_
  cases hcolumn : t.column? name with
  | none => exact .pure .error
  | some c =>
      have hc := hm.holds_of_column? (hm.tableOf?_of_table? htable) hcolumn
      refine (isVisible_insists hask hc).liftOk.bindOk fun visible _ => ?_
      cases visible with
      | false => exact .pure .error
      | true =>
          refine (insisting_insists hask hc .select).liftOk.bindOk fun d _ => ?_
          by_cases hd : d = .deny
          · rw [if_pos hd, if_pos hd]
            exact .pure .error
          · rw [if_neg hd, if_neg hd]
            exact (compileColumn_insists hask hm hc _ .projection _).mkOk.bindOk
              fun _ _ =>
                (compileColumn_insists hask hm hc _ .predicate _).mkOk.bindOk
                  fun _ _ => .pure (.ok trivial)

end Insists

end Query

/-- The uses are coherent with some other snapshots. -/
theorem Coherent.append_binds {uses : List Use} (h : Coherent uses)
    {snapshots : List Snapshot}
    (haddressable : ∀ s ∈ snapshots, s.model.Addressable)
    (hstamps : ∀ s ∈ snapshots,
      ∀ s' ∈ snapshots ++ uses.flatMap Use.snapshots,
        s'.stamp = s.stamp → s'.model = s.model) :
    Coherent (snapshots.map Use.bind ++ uses) := by
  induction snapshots with
  | nil => exact h
  | cons s rest ih =>
      obtain ⟨hs, hrest⟩ := List.forall_mem_cons.1 haddressable
      obtain ⟨hstamp, hstamps⟩ := List.forall_mem_cons.1 hstamps
      refine (ih hrest fun s' hs' s'' hs'' => ?_).cons_bind hs fun s' hs' => ?_
      · exact hstamps s' hs' s'' (List.mem_cons_of_mem _ hs'')
      · refine hstamp s' (List.mem_cons_of_mem _ ?_)
        simpa [List.flatMap_append, List.flatMap_map, Use.snapshots] using hs'

/-- What happens to a catalog and the context of a requester. -/
inductive Visit where
  | refresh (reader : Reader)
  | render
  | select (path : TablePath)
  | column (path : TablePath) (name : String)
  /-- The context is used for any snapshot. -/
  | use (u : Use)

def Visit.uses : Visit → List Use
  | use u => [u]
  | refresh _ | render | select _ | column _ _ => []

namespace Catalog

/-- The catalog after a visit. -/
def visited (c : Catalog) : Visit → Catalog
  | .refresh reader => c.refreshed reader
  | .render | .select _ | .column _ _ | .use _ => c

/-- The context after a visit. -/
def contextAfter (c : Catalog) (ctx : Context) : Visit → Context
  | .refresh _ => ctx
  | .render => (c.render ctx).2
  | .select path => (c.select ctx path).2
  | .column path name => (c.column ctx path name).2
  | .use u => (u.apply ctx).2

/-- The catalog and the context after some visits. -/
def afterVisits (c : Catalog) (ctx : Context) : List Visit → Catalog × Context
  | [] => (c, ctx)
  | v :: rest => afterVisits (c.visited v) (c.contextAfter ctx v) rest

/-- The snapshots that the catalog publishes before and during some visits. -/
def published (c : Catalog) : List Visit → List Snapshot
  | [] => [c.cell.snapshot]
  | v :: rest => c.cell.snapshot :: published (c.visited v) rest

/-- A refresh keeps the catalog as it is or publishes the next version. -/
theorem refreshed_version (c : Catalog) (reader : Reader) :
    c.refreshed reader = c ∨ (c.refreshed reader).version = c.version + 1 := by
  unfold refreshed
  cases hrefresh : c.refresh reader with
  | error e => exact .inl rfl
  | ok c' =>
      obtain ⟨result, _, h⟩ := bind_eq_ok.1 hrefresh
      cases h
      exact .inr rfl

theorem visited_version (c : Catalog) (v : Visit) :
    c.visited v = c ∨ (c.visited v).version = c.version + 1 := by
  cases v with
  | refresh reader => exact c.refreshed_version reader
  | _ => exact .inl rfl

theorem visited_addressable {c : Catalog} (hc : c.cell.model.Addressable)
    (v : Visit) : (c.visited v).cell.model.Addressable := by
  cases v with
  | refresh reader => exact refreshed_addressable hc reader
  | _ => exact hc

/-- Later snapshots have later versions. -/
theorem published_version {c : Catalog} {visits : List Visit} {s : Snapshot}
    (hs : s ∈ c.published visits) :
    c.version ≤ s.stamp ∧ (s.stamp = c.version → s.model = c.cell.model) := by
  induction visits generalizing c with
  | nil =>
      cases List.mem_singleton.1 hs
      exact ⟨Nat.le_refl _, fun _ => rfl⟩
  | cons v rest ih =>
      rcases List.mem_cons.1 hs with rfl | hs
      · exact ⟨Nat.le_refl _, fun _ => rfl⟩
      obtain ⟨hle, hmodel⟩ := ih hs
      rcases c.visited_version v with hsame | hnext
      · rw [hsame] at hle hmodel
        exact ⟨hle, hmodel⟩
      · rw [hnext] at hle
        exact ⟨by omega, fun h => by omega⟩

/-- Published snapshots with the same stamp have the same model. -/
theorem published_stamps {c : Catalog} {visits : List Visit} {s s' : Snapshot}
    (hs : s ∈ c.published visits) (hs' : s' ∈ c.published visits)
    (h : s'.stamp = s.stamp) : s'.model = s.model := by
  induction visits generalizing c with
  | nil =>
      cases List.mem_singleton.1 hs
      cases List.mem_singleton.1 hs'
      rfl
  | cons v rest ih =>
      rcases List.mem_cons.1 hs with rfl | hlater
      · exact (published_version hs').2 h
      rcases List.mem_cons.1 hs' with rfl | hlater'
      · exact ((published_version hs).2 h.symm).symm
      · exact ih hlater hlater'

theorem published_addressable {c : Catalog} (hc : c.cell.model.Addressable)
    {visits : List Visit} : ∀ s ∈ c.published visits, s.model.Addressable := by
  induction visits generalizing c with
  | nil => exact List.forall_mem_singleton.2 hc
  | cons v rest ih =>
      exact List.forall_mem_cons.2 ⟨hc, ih (visited_addressable hc v)⟩

section Faithful

variable {models : Nat → Model} {roles : Roles}

/-- A visit leaves a faithful context faithful. -/
theorem contextAfter_faithful {c : Catalog} (hc : c.cell.model.Addressable)
    (hmodels : models c.version = c.cell.model) {ctx : Context}
    (hctx : ctx.Faithful models roles) {v : Visit}
    (huses : ∀ u ∈ v.uses, (u.apply ctx).2.Faithful models roles) :
    (c.contextAfter ctx v).Faithful models roles := by
  obtain rfl := hctx.roles_eq
  have hask : Answers models ctx.roles (c.cell.snapshot.ask ctx.roles)
      c.cell.model := c.cell.snapshot.answers hc hmodels ctx.roles
  have hbound := hctx.bind c.cell.snapshot.stamp
  cases v with
  | refresh reader => exact hctx
  | render => exact (Render.catalog_evaluates hask hc _ hbound).2
  | select path => exact (Query.select_insists hask hc path _ hbound).2.1
  | column path name =>
      exact (Query.column_insists hask hc path name _ hbound).2.1
  | use u => exact huses u (List.mem_singleton_self u)

/-- After some visits the context is faithful and the catalog is addressable. -/
theorem afterVisits_faithful {uses : List Use} (huses : Coherent uses)
    {visits : List Visit} (hvisits : ∀ v ∈ visits, ∀ u ∈ v.uses, u ∈ uses)
    {c : Catalog} (hc : c.cell.model.Addressable)
    (hpublished : ∀ s ∈ c.published visits,
      modelOf (uses.flatMap Use.snapshots) s.stamp = s.model)
    {ctx : Context}
    (hctx : ctx.Faithful (modelOf (uses.flatMap Use.snapshots)) roles) :
    let after := c.afterVisits ctx visits
    after.1.cell.model.Addressable ∧
      modelOf (uses.flatMap Use.snapshots) after.1.version =
        after.1.cell.model ∧
      after.2.Faithful (modelOf (uses.flatMap Use.snapshots)) roles := by
  induction visits generalizing c ctx with
  | nil => exact ⟨hc, hpublished _ (List.mem_singleton_self _), hctx⟩
  | cons v rest ih =>
      obtain ⟨hfirst, hrest⟩ := List.forall_mem_cons.1 hvisits
      obtain ⟨hmodel, hlater⟩ := List.forall_mem_cons.1 hpublished
      exact ih hrest (visited_addressable hc v) hlater
        (contextAfter_faithful hc hmodel hctx fun u hu =>
          (huses.apply (hfirst u hu) hctx).2)

end Faithful

/-- The evaluation of a query that stops at an entity that depends on the row
but lacks conditions. -/
def insist (c : Catalog) (ctx : Context)
    (query : Ask (ExceptT Entity (StateM Context)) →
      ExceptT Entity (StateM Context) α) : Except Entity α × Context :=
  (query (Guard.insisting c.cell.model ctx.roles (some queryAlias)
    (c.cell.snapshot.ask ctx.roles))).run.run (ctx.bind c.version)

/-- Queries keep to what the guards' compiler relies on.  In no context whatever
is it called for a denied column.  In a context that is used in any way across
any number of refreshes, it finds conditions for all that depends on the row. -/
theorem queries_keep_contract :
    (∀ (c : Catalog) (ctx : Context) (path : TablePath) (fault : Guard.Fault),
        ((c.select ctx path).1 = .error fault → fault.isMisuse = false) ∧
          ∀ name, (c.column ctx path name).1 = .error fault →
            fault.isMisuse = false) ∧
      ∀ (settings : Settings) (roles : Roles) (visits : List Visit),
        Coherent (visits.flatMap Visit.uses) →
        (∀ s ∈ (fresh settings).published visits,
          ∀ s' ∈ (visits.flatMap Visit.uses).flatMap Use.snapshots,
            s'.stamp = s.stamp → s'.model = s.model) →
        let (c, ctx) := (fresh settings).afterVisits (.fresh roles) visits
        ∀ path : TablePath,
          (c.insist ctx fun ask =>
              (Query.select ask c.cell.model ctx.roles path).run) =
            (.ok (c.select ctx path).1, (c.select ctx path).2) ∧
          ∀ name,
            (c.insist ctx fun ask =>
                (Query.column ask c.cell.model ctx.roles path name).run) =
              (.ok (c.column ctx path name).1, (c.column ctx path name).2) := by
  constructor
  · intro c ctx path fault
    have hselect := Query.select_heeds c.cell.snapshot ctx.roles path
    exact ⟨hselect.isMisuse, fun name =>
      (Query.column_heeds c.cell.snapshot ctx.roles path name).isMisuse⟩
  · intro settings roles visits huses hstamps
    have hfresh := fresh_addressable settings
    have hcoherent : Coherent (((fresh settings).published visits).map Use.bind ++
        visits.flatMap Visit.uses) := by
      refine huses.append_binds (published_addressable hfresh) fun s hs s' hs' => ?_
      rcases List.mem_append.1 hs' with hs' | hs'
      · exact published_stamps hs hs'
      · exact hstamps s hs s' hs'
    obtain ⟨hc, hmodels, hctx⟩ := afterVisits_faithful hcoherent
      (fun v hv u hu =>
        List.mem_append_right _ (List.mem_flatMap.2 ⟨v, hv, hu⟩))
      hfresh
      (fun s hs => hcoherent.modelOf_stamp
        (List.mem_flatMap.2 ⟨.bind s, by simp [hs], List.mem_singleton_self s⟩))
      (Context.Faithful.fresh _ roles)
    generalize (fresh settings).afterVisits (.fresh roles) visits = after at *
    obtain ⟨c, ctx⟩ := after
    obtain rfl := hctx.roles_eq
    intro path
    have hask : Answers _ ctx.roles (c.cell.snapshot.ask ctx.roles)
        c.cell.model := c.cell.snapshot.answers hc hmodels ctx.roles
    have hbound := hctx.bind c.version
    exact ⟨(Query.select_insists hask hc path _ hbound).1, fun name =>
      (Query.column_insists hask hc path name _ hbound).1⟩

/-- Visits to a diary across refreshes, and a question about the first snapshot
when it is out of date. -/
def diaryVisits : List Visit :=
  [.select ⟨"home", "diary"⟩, .refresh diary, .render,
    .column ⟨"home", "diary"⟩ "text", .refresh diary,
    .use (.ask (fresh .standard).cell.snapshot .catalog .enumerate)]

theorem queries_keep_contract_diary :
    let uses := diaryVisits.flatMap Visit.uses
    let after := (fresh .standard).afterVisits (.fresh (.ofList ["ann"]))
      diaryVisits
    let c := after.1
    let ctx := after.2
    let path : TablePath := ⟨"home", "diary"⟩
    Coherent uses ∧
      (∀ s ∈ (fresh .standard).published diaryVisits,
        ∀ s' ∈ uses.flatMap Use.snapshots,
          s'.stamp = s.stamp → s'.model = s.model) ∧
      c.version = 3 ∧
      ∃ sql, (c.select ctx path).1 = .ok sql ∧
        (c.insist ctx fun ask =>
          (Query.select ask c.cell.model ctx.roles path).run) =
            (.ok (.ok sql), (c.select ctx path).2) ∧
        ∀ fault, (c.column ctx path "text").1 = .error fault →
          fault.isMisuse = false := by
  intro uses after c ctx path
  have hsnapshots : ∀ s ∈ uses.flatMap Use.snapshots,
      s = (fresh .standard).cell.snapshot := by
    simp [uses, diaryVisits, Visit.uses, Use.snapshots]
  have hcoherent : Coherent uses := {
    stamps := by
      intro s hs s' hs' _
      rw [hsnapshots s hs, hsnapshots s' hs']
    addressable := by
      intro s hs
      rw [hsnapshots s hs]
      exact fresh_addressable _
    own := by
      intro s e right h
      simp only [uses, diaryVisits, Visit.uses, List.flatMap_cons,
        List.flatMap_nil, List.nil_append, List.append_nil, List.mem_singleton,
        Use.ask.injEq] at h
      obtain ⟨rfl, rfl, _⟩ := h
      exact List.mem_cons_self }
  have hstamps : ∀ s ∈ (fresh .standard).published diaryVisits,
      ∀ s' ∈ uses.flatMap Use.snapshots,
        s'.stamp = s.stamp → s'.model = s.model := by
    intro s hs s' hs' h
    rw [hsnapshots s' hs'] at h ⊢
    exact ((published_version hs).2 h.symm).symm
  have hsome : (c.select ctx path).1.toOption.isSome = true := by decide +kernel
  obtain ⟨sql, hsql⟩ := Option.isSome_iff_exists.1 hsome
  rw [toOption_eq_some_iff] at hsql
  obtain ⟨hheeds, hinsists⟩ := queries_keep_contract
  refine ⟨hcoherent, hstamps, by decide +kernel, sql, hsql, ?_, ?_⟩
  · rw [← hsql]
    exact (hinsists .standard _ diaryVisits hcoherent hstamps path).1
  · exact fun fault => (hheeds c ctx path fault).2 "text"

end Catalog

end GovernedCatalog
