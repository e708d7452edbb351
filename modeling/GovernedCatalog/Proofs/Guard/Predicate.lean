import GovernedCatalog.Proofs.Guard.Column
import GovernedCatalog.Proofs.Model.History

/-!
# Predicates of row-dependent columns

The predicate of a column holds where the requester is denied the column.  It is
made from the same conditions as the guard of the column's values, each negated
and taken for true where it is unknown, so it is the complement of the guard.
-/

namespace GovernedCatalog

namespace Guard

/-! ## The truth of a predicate -/

/-- The negation of a truth; what is unknown stays unknown. -/
def negation (p : Option Bool) : Option Bool := p.map (!·)

/-- What is unknown counts as true. -/
def assumed (p : Option Bool) : Option Bool := p.or (some true)

def both : Option Bool → Option Bool → Option Bool
  | some false, _ | _, some false => some false
  | some true, some true => some true
  | _, _ => none

/-- The truth of the predicate on a row. -/
def Denied.truth (truth : Assignment) : Denied → Option Bool
  | always => some true
  | unlessAny conditions =>
      conditions.foldr (fun c rest => both (assumed (negation (truth c))) rest)
        (some true)

theorem assumed_negation (p : Option Bool) :
    assumed (negation p) = some (p != some true) := by
  cases p with
  | none => rfl
  | some b => cases b <;> rfl

theorem both_some (p q : Bool) : both (some p) (some q) = some (p && q) := by
  cases p <;> cases q <;> rfl

theorem unlessAny_truth (truth : Assignment) (conditions : List String) :
    (Denied.unlessAny conditions).truth truth =
      some (conditions.all fun c => truth c != some true) := by
  induction conditions with
  | nil => rfl
  | cons c rest ih =>
      change both _ ((Denied.unlessAny rest).truth truth) = _
      rw [ih, assumed_negation, both_some, List.all_cons]

theorem unlessAny_truth_eq_true_iff {truth : Assignment}
    {conditions : List String} :
    (Denied.unlessAny conditions).truth truth = some true ↔
      ∀ c ∈ conditions, truth c ≠ some true := by
  simp [unlessAny_truth]

theorem unlessAny_truth_eq_false_iff {truth : Assignment}
    {conditions : List String} :
    (Denied.unlessAny conditions).truth truth = some false ↔
      ∃ c ∈ conditions, truth c = some true := by
  simp [unlessAny_truth]

/-- The predicate is true where the guard shows null in place of every value. -/
theorem unlessAny_truth_eq_true_iff_cell {truth : Assignment}
    {conditions : List String} :
    (Denied.unlessAny conditions).truth truth = some true ↔
      ∀ {α : Type} (value : Option α),
        (Shown.whenAny conditions).cell truth value = none := by
  rw [unlessAny_truth_eq_true_iff]
  have hcell : ∀ {α : Type} (value : Option α),
      (Shown.whenAny conditions).cell truth value =
        if anyTruth truth conditions = some true then value else none :=
    fun _ => rfl
  simp only [hcell, anyTruth_eq_true_iff]
  constructor
  · intro hnone α value
    exact if_neg fun ⟨c, hc, htrue⟩ => hnone c hc htrue
  · intro hnull c hc htrue
    have hshown := hnull (some ())
    rw [if_pos ⟨c, hc, htrue⟩] at hshown
    cases hshown

/-! ## Conditions of row-dependent entities -/

section Column

variable {m : Model} {roles : Roles} {t : Table} {c : Column}
  {alias? : Option String} {right : Right} {conditions : List String}

/-- A row-dependent column has conditions, and no list names the requester. -/
theorem conditions_of_indeterminate (ht : m.tableOf? c.table = some t)
    (hdecide : decide m roles (.column c) right = .indeterminate)
    (h : grantingConditions m roles t (t.bindings.overlay c.bindings) alias?
      right = .ok conditions) :
    listed (c.aclFor? m t) roles right = false ∧ conditions ≠ [] := by
  have hdeny : decide m roles (.column c) right ≠ .deny := by simp [hdecide]
  have hverdict := decide_column_of_ne_deny ht hdeny
  rw [hdecide] at hverdict
  obtain ⟨hunlisted, hgranting⟩ := verdict_eq_indeterminate_iff.1 hverdict.symm
  exact ⟨hunlisted, grantingConditions_ne_nil hgranting h⟩

/-- The rows that the table admits are not denied to the requester, if the
column is not restricted. -/
theorem unlessAny_truth_of_admitted (ht : m.tableOf? c.table = some t)
    (hdecide : decide m roles (.column c) right = .indeterminate)
    (hconditions : grantingConditions m roles t (t.bindings.overlay c.bindings)
      alias? right = .ok conditions)
    (hrestricted : restricted m roles c right = false) {filter : RowFilter}
    (hfilter : rowFilter m roles t alias? right = .ok filter)
    {truth : Assignment} (hadmits : filter.Admits truth) :
    (Denied.unlessAny conditions).truth truth = some false := by
  have htable : decide m roles (.table t) right ≠ .deny :=
    decide_table_ne_deny ht (by simp [hdecide])
  have hgranted : ColumnGranted m roles t alias? right truth c :=
    columnGranted_of_not_restricted ht htable (by simp [hdecide]) hrestricted
      ((rowFilter_admits_iff hfilter htable).1 hadmits)
  have hunlisted := (conditions_of_indeterminate ht hdecide hconditions).1
  have hbound := hgranted.resolve_left (by simp [hunlisted])
  exact unlessAny_truth_eq_false_iff.2 ((bound_iff hconditions).1 hbound)

end Column

/-! ## Predicates in faithful contexts -/

/-- The predicate of a column, by the decisions made afresh. -/
def columnPredicate (m : Model) (roles : Roles) (c : Column)
    (alias? : Option String) (right : Right) : Except Fault String :=
  match decide m roles (.column c) right with
  | .deny => .error (.deniedColumn right c.name c.table)
  | .allow => .ok unchecked
  | .indeterminate =>
      ((columnConditions m roles c alias? right).map
        fun conditions => (denied conditions).sql).mapError .failed

theorem compileColumn_predicate {models : Nat → Model} {roles : Roles}
    {ask : Ask (StateM Context)} {m : Model} (hask : Answers models roles ask m)
    {c : Column} (hc : m.Holds (.column c)) (alias? : Option String)
    (right : Right) :
    Evaluates models roles
      (compileColumn ask m roles c alias? .predicate right)
      (columnPredicate m roles c alias? right) := by
  unfold compileColumn columnPredicate
  refine .bind (hask hc right) ?_
  cases decide m roles (.column c) right with
  | allow => exact .pure _
  | deny => exact .pure _
  | indeterminate => exact .pure _

/-- The predicate of a column with some conditions is the complement of the
guards of the column and of its table in a context. -/
structure Complements (s : Snapshot) (ctx : Context) (c : Column)
    (alias? : Option String) (right : Right) (conditions : List String) :
    Prop where
  known : ∀ truth : Assignment,
    (Denied.unlessAny conditions).truth truth ≠ none
  holds_iff : ∀ truth : Assignment,
    (Denied.unlessAny conditions).truth truth = some true ↔
      ∀ condition ∈ conditions, truth condition ≠ some true
  /-- The guard of a restricted column shows null in place of any value where
  the predicate holds, and nowhere else. -/
  restricted :
    (s.evaluate ctx fun ask => isRestricted ask s.model c right).1 = true →
      (s.evaluate ctx fun ask =>
          compileColumn ask s.model ctx.roles c alias? .projection right).1 =
        .ok ((Shown.whenAny conditions).sql c alias?) ∧
      ∀ truth : Assignment,
        (Denied.unlessAny conditions).truth truth = some true ↔
          ∀ {α : Type} (value : Option α),
            (Shown.whenAny conditions).cell truth value = none
  /-- The predicate of another column fails on the rows of the table. -/
  covered :
    (s.evaluate ctx fun ask => isRestricted ask s.model c right).1 = false →
      ∀ t, s.model.tableOf? c.table = some t → ∀ sql,
        (s.evaluate ctx fun ask =>
          compileTable ask s.model ctx.roles t alias? right).1 = .ok sql →
        ∃ filter : RowFilter, sql = filter.sql ∧
          ∀ truth : Assignment, filter.Admits truth →
            (Denied.unlessAny conditions).truth truth = some false

end Guard

open Guard

section Faithful

variable {s : Snapshot} (hs : s.model.Addressable) {models : Nat → Model}
  (hmodels : models s.stamp = s.model) {ctx : Context}
  (hctx : ctx.Faithful models ctx.roles)

include hs hmodels hctx

/-- The predicate of a row-dependent column is made of the column's conditions,
and it is the complement of the guards. -/
theorem Snapshot.predicate_complements {c : Column}
    (hc : s.model.Holds (.column c)) {alias? : Option String} {right : Right}
    (hdecide : (s.evaluate ctx fun ask => ask (.column c) right).1 =
      .indeterminate)
    {sql : String}
    (hsql : (s.evaluate ctx fun ask =>
      compileColumn ask s.model ctx.roles c alias? .predicate right).1 =
        .ok sql) :
    ∃ t conditions, s.model.tableOf? c.table = some t ∧
      grantingConditions s.model ctx.roles t (t.bindings.overlay c.bindings)
        alias? right = .ok conditions ∧
      sql = (Denied.unlessAny conditions).sql ∧
      Complements s ctx c alias? right conditions := by
  have hask : Answers models ctx.roles (s.ask ctx.roles) s.model :=
    s.answers hs hmodels ctx.roles
  have hbound := hctx.bind s.stamp
  have hcolumn : decide s.model ctx.roles (.column c) right = .indeterminate :=
    (hask hc right _ hbound).1.symm.trans hdecide
  have hpredicate : columnPredicate s.model ctx.roles c alias? right = .ok sql :=
    (compileColumn_predicate hask hc alias? right _ hbound).1.symm.trans hsql
  have hprojection :=
    (compileColumn_projection hask hs hc alias? right _ hbound).1
  have hrestricted := (hask.isRestricted hs hc right _ hbound).1
  obtain ⟨t, ht, -⟩ := Model.holds_column.1 hc
  unfold columnPredicate columnConditions at hpredicate
  simp only [hcolumn, ht] at hpredicate
  obtain ⟨conditions, hconditions, rfl⟩ :=
    map_eq_ok.1 (mapError_eq_ok.1 hpredicate)
  have hne := (conditions_of_indeterminate ht hcolumn hconditions).2
  have hempty : conditions.isEmpty = false := by simpa using hne
  refine ⟨t, conditions, ht, hconditions, ?_, ?_⟩
  · simp [denied, hempty]
  refine {
    known := fun truth => by simp [unlessAny_truth]
    holds_iff := fun truth => unlessAny_truth_eq_true_iff
    restricted := fun h => ⟨?_, fun truth => unlessAny_truth_eq_true_iff_cell⟩
    covered := fun h t' ht' sql' hsql' => ?_ }
  · refine hprojection.trans ?_
    rw [columnShown, hcolumn, columnConditions, ht]
    simp [hrestricted.symm.trans h, hconditions, shown, hempty, Except.map,
      Except.mapError]
  · cases ht.symm.trans ht'
    have hfilter := (compileTable_filter hask (hs.holds_of_tableOf? ht) alias?
      right _ hbound).1.symm.trans hsql'
    obtain ⟨filter, hrows, rfl⟩ := map_eq_ok.1 hfilter
    exact ⟨filter, rfl, fun truth => unlessAny_truth_of_admitted ht hcolumn
      hconditions (hrestricted.symm.trans h) hrows⟩

end Faithful

/-- Slips that are shown to their employees, with amounts that are shown to the
approvers only. -/
def payroll : Model :=
  ((Model.fresh "sys").after changes).setAcls .catalog
    (.ofList [(.enumerate, ["*"])])
where
  changes : List Change :=
    [.ensureSchema "pay",
      .addTable "pay"
        { Table.fresh "pay" "slip" .table with bindings := own "employee" }] ++
      columns.map (.addColumn ⟨"pay", "slip"⟩)
  columns : List Column :=
    [.stored ⟨"pay", "slip"⟩ "employee" 0 .text none,
      .stored ⟨"pay", "slip"⟩ "approver" 1 .text none,
      { Column.stored ⟨"pay", "slip"⟩ "amount" 2 .text none with
        bindings := own "approver" }]
  own (column : String) : Bindings :=
    .ofList [("own", .enabled
      ⟨[.select], some (.column column), .acl, none, Binding.everyone⟩)]

theorem payroll_addressable : payroll.Addressable := by
  have hbuilt : ∀ c ∈ payroll.changes, c.WellBuilt := by
    simp [payroll.changes, payroll.columns, Change.WellBuilt, Table.fresh,
      Column.stored]
  have hclosed := Model.after_closed (Model.fresh_closed "sys") hbuilt
  exact {
    toNamed := (hclosed.setAcls _ _).named
    system_table := fun h => by cases h
    system_apart := rfl }

theorem Snapshot.predicate_complements_payroll :
    let s : Snapshot := ⟨1, payroll⟩
    let ctx := Context.fresh (.ofList ["ann"])
    payroll.Addressable ∧ ctx.Faithful (fun _ => payroll) ctx.roles ∧
      ∀ c ∈ payroll.columns, payroll.Holds (.column c) ∧
        (s.evaluate ctx fun ask => ask (.column c) .select).1 =
          .indeterminate ∧
        (s.evaluate ctx fun ask => isRestricted ask s.model c .select).1 =
          (c.name == "amount") ∧
        ∃ t conditions sql,
          (s.evaluate ctx fun ask =>
            compileColumn ask s.model ctx.roles c none .predicate .select).1 =
              .ok sql ∧
          payroll.tableOf? c.table = some t ∧
          grantingConditions payroll ctx.roles t
            (t.bindings.overlay c.bindings) none .select = .ok conditions ∧
          sql = (Denied.unlessAny conditions).sql ∧
          Complements s ctx c none .select conditions := by
  intro s ctx
  have hctx : ctx.Faithful (fun _ => payroll) ctx.roles := .fresh _ _
  refine ⟨payroll_addressable, hctx, ?_⟩
  intro c hmem
  have hasked : payroll.Holds (.column c) ∧
      (s.evaluate ctx fun ask => ask (.column c) .select).1 = .indeterminate ∧
      (s.evaluate ctx fun ask => isRestricted ask s.model c .select).1 =
        (c.name == "amount") ∧
      ∃ sql, (s.evaluate ctx fun ask =>
        compileColumn ask s.model ctx.roles c none .predicate .select).1 =
          .ok sql := by
    simp only [payroll.columns, List.mem_cons, List.not_mem_nil, or_false]
      at hmem
    rcases hmem with rfl | rfl | rfl <;>
      exact ⟨rfl, by decide +kernel, by decide +kernel, _, rfl⟩
  obtain ⟨hc, hdecide, hrestricted, sql, hsql⟩ := hasked
  obtain ⟨t, conditions, ht, hconditions, hpredicate, hcomplements⟩ :=
    s.predicate_complements payroll_addressable rfl hctx hc hdecide hsql
  exact ⟨hc, hdecide, hrestricted, t, conditions, sql, hsql, ht, hconditions,
    hpredicate, hcomplements⟩

end GovernedCatalog
