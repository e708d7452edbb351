import GovernedCatalog.Proofs.Guard.Contract
import GovernedCatalog.Proofs.Rights.Inheritance

/-!
# Guards of columns without a policy of their own

A column without lists and bindings of its own is guarded by its table alone.  It
is decided like the table and never restricted, so its value needs no guard, and
its predicate is made from the conditions of the table's filter.
-/

namespace GovernedCatalog.Guard

/-- The decision on a column and its guards are those of its table. -/
structure Inherits (s : Snapshot) (roles : Roles) (t : Table) (c : Column)
    (right : Right) : Prop where
  decision :
    s.decision roles (.column c) right = s.decision roles (.table t) right
  unrestricted :
    (s.evaluate (.fresh roles) fun ask => isRestricted ask s.model c right).1 =
      false
  value : s.decision roles (.column c) right ≠ .deny → ∀ alias?,
    (s.evaluate (.fresh roles) fun ask =>
      compileColumn ask s.model roles c alias? .projection right).1 =
        .ok (c.sql alias?)
  /-- The predicate and the filter are of the same conditions, and there are
  some unless a condition cannot be compiled. -/
  conditions : s.decision roles (.column c) right = .indeterminate → ∀ alias?,
    let conditions := grantingConditions s.model roles t t.bindings alias? right
    conditions ≠ .ok [] ∧
      (s.evaluate (.fresh roles) fun ask =>
        compileColumn ask s.model roles c alias? .predicate right).1 =
          (conditions.map fun cs => (Denied.unlessAny cs).sql).mapError .failed ∧
      (s.evaluate (.fresh roles) fun ask =>
        compileTable ask s.model roles t alias? right).1 =
          conditions.map fun cs => (RowFilter.anyOf cs).sql

section Bare

variable {m part : Model} {t : Table} (h : m.Decides part t) {c : Column}
  (hc : c ∈ t.columns) (hacls : c.acls = ∅) (hbindings : c.bindings = ∅)
  {roles : Roles} {right : Right} {models : Nat → Model}
  {ask : Ask (StateM Context)} (hask : Answers models roles ask part)

include h hc hacls hbindings

theorem decide_bare :
    decide part roles (.column c) right =
      decide part roles (.table t) right := by
  refine decide_bare_column ?_ hbindings hacls
  rw [h.column_table hc]
  exact h.table

omit hacls in
theorem columnConditions_bare (alias? : Option String) :
    columnConditions m roles c alias? right =
      grantingConditions m roles t t.bindings alias? right := by
  unfold columnConditions
  rw [h.tableOf?_column hc, hbindings]
  dsimp only
  rw [SortedMap.overlay_empty]

include hask

theorem isRestricted_bare :
    Evaluates models roles (isRestricted ask m c right) false := by
  have hsame : decide part roles (.column c) right =
      decide part roles (.table t) right :=
    decide_bare h hc hacls hbindings
  unfold isRestricted
  refine .bind (hask (h.holds_column hc) right) ?_
  by_cases hallow : decide part roles (.column c) right = .allow
  · simp only [if_pos hallow]
    exact .pure _
  · rw [h.tableOf?_column hc]
    simp only [if_neg hallow]
    refine .bind (hask h.holds_table right) ?_
    rw [hsame] at hallow
    simp only [if_neg hallow, hbindings]
    exact .pure _

theorem projection_bare (hne : decide part roles (.column c) right ≠ .deny)
    (alias? : Option String) :
    Evaluates models roles
      (compileColumn ask m roles c alias? .projection right)
      (.ok (c.sql alias?)) := by
  unfold compileColumn
  refine .bind (hask (h.holds_column hc) right) ?_
  cases hdecide : decide part roles (.column c) right with
  | allow => exact .pure _
  | deny => exact absurd hdecide hne
  | indeterminate =>
      exact .bind (isRestricted_bare h hc hacls hbindings hask) (.pure _)

omit hacls in
theorem predicate_bare
    (hdecide : decide part roles (.column c) right = .indeterminate)
    (alias? : Option String) :
    Evaluates models roles
      (compileColumn ask m roles c alias? .predicate right)
      (((grantingConditions m roles t t.bindings alias? right).map
        fun cs => (denied cs).sql).mapError .failed) := by
  unfold compileColumn
  refine .bind (hask (h.holds_column hc) right) ?_
  rw [hdecide, ← columnConditions_bare h hc hbindings]
  exact .pure _

omit hc hacls hbindings in
theorem filter_of_indeterminate
    (hdecide : decide part roles (.table t) right = .indeterminate)
    (alias? : Option String) :
    Evaluates models roles (compileTable ask m roles t alias? right)
      ((grantingConditions m roles t t.bindings alias? right).map
        fun cs => (filterOf cs).sql) := by
  unfold compileTable
  refine .bind (hask h.holds_table right) ?_
  rw [hdecide]
  exact .pure _

end Bare

/-- A rendering that differs only for conditions that are not there. -/
theorem map_of_ne_nil {x : Except Error (List String)} (hx : x ≠ .ok [])
    {f g : List String → String} (hfg : ∀ c cs, f (c :: cs) = g (c :: cs)) :
    x.map f = x.map g := by
  rcases x with e | _ | ⟨c, cs⟩
  · rfl
  · exact absurd rfl hx
  · exact congrArg Except.ok (hfg c cs)

/-- A column without lists and bindings of its own adds nothing to its table. -/
theorem inherits_of_bare (s : Snapshot) (hclosed : s.model.Closed)
    (hapart : s.model.schemas.get? s.model.systemSchema.name = none)
    {t : Table} (ht : s.model.HasTable t) {c : Column} (hc : c ∈ t.columns)
    (hacls : c.acls = ∅) (hbindings : c.bindings = ∅) (roles : Roles)
    (right : Right) : Inherits s roles t c right := by
  obtain ⟨part, h⟩ := ht.decided hclosed hapart
  have hcolumn : s.decision roles (.column c) right =
      decide part roles (.column c) right :=
    h.evaluate_fresh fun _ hask => hask (h.holds_column hc) right
  have htable : s.decision roles (.table t) right =
      decide part roles (.table t) right :=
    h.evaluate_fresh fun _ hask => hask h.holds_table right
  have hsame : decide part roles (.column c) right =
      decide part roles (.table t) right :=
    decide_bare h hc hacls hbindings
  refine {
    decision := hcolumn.trans (hsame.trans htable.symm)
    unrestricted := h.evaluate_fresh fun _ hask =>
      isRestricted_bare h hc hacls hbindings hask
    value := fun hne alias? => h.evaluate_fresh fun _ hask =>
      projection_bare h hc hacls hbindings hask (hcolumn ▸ hne) alias?
    conditions := fun hdecide alias? => ?_ }
  rw [hcolumn] at hdecide
  have hrows : decide s.model roles (.table t) right = .indeterminate := by
    rw [← h.decide_eq h.holds_table, ← hsame]
    exact hdecide
  have hne : grantingConditions s.model roles t t.bindings alias? right ≠
      .ok [] :=
    fun hnil => ne_nil_of_indeterminate hrows (congrArg some hnil) rfl
  refine ⟨hne, ?_, ?_⟩
  · rw [map_of_ne_nil hne (g := fun cs => (denied cs).sql) fun c cs => rfl]
    exact h.evaluate_fresh fun _ hask =>
      predicate_bare h hc hbindings hask hdecide alias?
  · rw [map_of_ne_nil hne (g := fun cs => (filterOf cs).sql) fun c cs => rfl]
    exact h.evaluate_fresh fun _ hask =>
      filter_of_indeterminate h hask (hsame ▸ hdecide) alias?

/-- The authors of drafts have no policy of their own. -/
theorem inherits_of_bare_press :
    let s : Snapshot := ⟨1, press⟩
    let drafts := press.table press.drafts
    let author := press.column press.drafts "author"
    press.Closed ∧ press.schemas.get? press.systemSchema.name = none ∧
      press.HasTable drafts ∧ author ∈ drafts.columns ∧ author.acls = ∅ ∧
      author.bindings = ∅ ∧
      (∀ right, Inherits s {} drafts author right) ∧
      s.decision {} (.column author) .select = .indeterminate ∧
      s.decision {} (.column author) .enumerate = .allow ∧
      s.decision {} (.column author) .create = .deny := by
  intro s drafts author
  have hapart : press.schemas.get? press.systemSchema.name = none := rfl
  have hmem : author ∈ drafts.columns := (Table.column?_eq_some
    (show drafts.column? "author" = some author from rfl)).1
  exact ⟨press_closed, hapart, press_hasTable.1, hmem, rfl, rfl,
    inherits_of_bare s press_closed hapart press_hasTable.1 hmem rfl rfl {},
    by decide +kernel, by decide +kernel, by decide +kernel⟩

end GovernedCatalog.Guard
