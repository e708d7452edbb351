import GovernedCatalog.Guard.Binding
import GovernedCatalog.Proofs.Fallible

/-!
# Steps along a path

A step that succeeds follows the reference it names and moves to the table at
its other end, or it puts a condition on the row where the walk stands.
-/

namespace GovernedCatalog

/-- The table to which a step along the reference leads. -/
def Reference.far (r : Reference) : Direction → TablePath
  | .outbound => r.mapping.target
  | .inbound => r.source

/-- The references on one side of a table. -/
def Model.references? (m : Model) (t : Table) : Direction → Option (List Reference)
  | .outbound => some t.references
  | .inbound => (m.inboundReferences t.path).toOption

/-- The reference that a step from the table follows. -/
def Model.followed? (m : Model) (t : Table) (direction : Direction)
    (constraint : ConstraintName) : Option Reference :=
  (m.references? t direction).bind fun references =>
    references.find? fun r => r.constraints.contains constraint

namespace Guard

/-- The conditions that join the rows at both ends of a reference. -/
def joinConditions (direction : Direction) (r : Reference)
    (row next : RowName) : List Condition :=
  r.mapping.pairs.entries.map fun (source, target) =>
    match direction with
    | .outbound => .join ⟨row, source⟩ ⟨next, target⟩
    | .inbound => .join ⟨row, target⟩ ⟨next, source⟩

/-- The conditions that filters put on a field. -/
inductive FilterCondition (field : Field) (type : ColumnType) :
    Json → String → Condition → Prop
  | null {operand : Json} :
      FilterCondition field type operand "::null::" (.isNull field)
  | regexp {pattern : String} :
      FilterCondition field type (.str pattern) "::regexp::"
        (.fits field true pattern)
  | ciregexp {pattern : String} :
      FilterCondition field type (.str pattern) "::ciregexp::"
        (.fits field false pattern)
  | compare {operand : Json} {operator : String} {comparison : Comparison}
      {constant : String}
      (hcomparison : Comparison.ofOperator? operator = some comparison)
      (hconstant : type.literal operand = .ok constant) :
      FilterCondition field type operand operator
        (.compare field comparison constant)

namespace Walk

variable (m : Model) (w : Walk)

/-- The walk after a step along a reference to a table. -/
def moved (direction : Direction) (r : Reference) (next : Table) : Walk :=
  let row := RowName.joined (w.joined.length + 1)
  ⟨next, row, w.joined ++ [next.path],
    w.conditions ++ joinConditions direction r w.row row⟩

/-- The walk with a condition on the row where it stands. -/
def narrowed (condition : Condition) : Walk :=
  { w with conditions := w.conditions ++ [condition] }

/-- What the steps that succeed do. -/
inductive Step : PathElement → Walk → Prop
  | follow {direction : Direction} {constraint : ConstraintName} {r : Reference}
      {next : Table} (hr : m.followed? w.table direction constraint = some r)
      (hnext : m.tableOf? (r.far direction) = some next) :
      Step (.follow direction constraint) (w.moved direction r next)
  | filter {name : String} {operand : Json} {operator : Option String}
      {c : Column} {condition : Condition}
      (hc : w.table.column? name = some c)
      (hcondition : FilterCondition ⟨w.row, c.name⟩ c.type operand
        (operator.getD "=") condition) :
      Step (.filter name operand operator) (w.narrowed condition)

variable {m : Model} {w : Walk}

theorem column_eq_ok {name : String} {c : Column} :
    w.column name = .ok c ↔ w.table.column? name = some c := by
  unfold column
  cases w.table.column? name <;> simp

theorem reference_eq_ok {direction : Direction} {constraint : ConstraintName}
    {r : Reference} :
    w.reference m direction constraint = .ok r ↔
      m.followed? w.table direction constraint = some r := by
  unfold reference
  cases direction with
  | outbound =>
      have hfollowed : m.followed? w.table .outbound constraint =
          w.table.referenceNamed? constraint := rfl
      rw [hfollowed]
      cases w.table.referenceNamed? constraint <;>
        simp [bind, Except.bind, pure, Except.pure, throw, throwThe,
          MonadExceptOf.throw]
  | inbound =>
      unfold Model.followed? Model.references?
      cases m.inboundReferences w.table.path with
      | error cause =>
          simp [Except.toOption, bind, Except.bind, throw, throwThe,
            MonadExceptOf.throw]
      | ok references =>
          simp only [Except.toOption, Option.bind_some, pure_bind]
          cases references.find? fun r => r.constraints.contains constraint <;>
            simp [pure, Except.pure, throw, throwThe, MonadExceptOf.throw]

theorem follow_eq_ok {direction : Direction} {r : Reference} {w' : Walk} :
    w.follow m direction r = .ok w' ↔
      ∃ next, m.tableOf? (r.far direction) = some next ∧
        w.moved direction r next = w' := by
  unfold follow
  cases direction with
  | outbound =>
      have hfar : r.far .outbound = r.mapping.target := rfl
      rw [hfar]
      cases hnext : m.tableOf? r.mapping.target <;>
        simp [hnext, moved, joinConditions]
  | inbound =>
      have hfar : r.far .inbound = r.source := rfl
      rw [hfar]
      cases hnext : m.tableOf? r.source <;>
        simp [hnext, moved, joinConditions]

theorem filterCondition_eq_ok {field : Field} {type : ColumnType}
    {operand : Json} {operator : String} {c : Condition} :
    filterCondition field type operand operator = .ok c ↔
      FilterCondition field type operand operator c := by
  constructor
  · unfold filterCondition
    extract_lets pattern
    have hpattern : ∀ caseSensitive, pattern caseSensitive = .ok c →
        ∃ p, operand = .str p ∧ .fits field caseSensitive p = c := by
      intro caseSensitive h
      cases operand with
      | str p =>
          cases h
          exact ⟨p, rfl, rfl⟩
      | _ => cases h
    intro h
    split at h
    · cases h
      exact .null
    · obtain ⟨p, rfl, rfl⟩ := hpattern _ h
      exact .regexp
    · obtain ⟨p, rfl, rfl⟩ := hpattern _ h
      exact .ciregexp
    · cases hcomparison : Comparison.ofOperator? operator with
      | none =>
          rw [hcomparison] at h
          cases h
      | some comparison =>
          rw [hcomparison] at h
          obtain ⟨constant, hconstant, rfl⟩ := map_eq_ok.1 h
          exact .compare hcomparison hconstant
  · intro h
    cases h with
    | null => rfl
    | regexp => rfl
    | ciregexp => rfl
    | compare hcomparison hconstant =>
        unfold Comparison.ofOperator? at hcomparison
        split at hcomparison <;> cases hcomparison <;>
          exact map_eq_ok.2 ⟨_, hconstant, rfl⟩

theorem step_eq_ok {element : PathElement} {w' : Walk} :
    w.step m element = .ok w' ↔ Step m w element w' := by
  cases element with
  | follow direction constraint =>
      simp only [step, bind_eq_ok, reference_eq_ok, follow_eq_ok]
      constructor
      · rintro ⟨r, hr, next, hnext, rfl⟩
        exact .follow hr hnext
      · rintro ⟨hr, hnext⟩
        exact ⟨_, hr, _, hnext, rfl⟩
  | filter name operand operator =>
      simp only [step, bind_eq_ok, column_eq_ok, filterCondition_eq_ok]
      constructor
      · rintro ⟨c, hc, condition, hcondition, h⟩
        cases h
        exact .filter hc hcondition
      · rintro (_ | ⟨hc, hcondition⟩)
        exact ⟨_, hc, _, hcondition, rfl⟩
  | column name =>
      constructor
      · intro h
        cases h
      · intro h
        cases h

/-- The walk after all of some steps. -/
def run (m : Model) (w : Walk) (steps : List PathElement) : Except Error Walk :=
  steps.foldlM (fun w element => w.step m element) w

theorem run_cons (m : Model) (w : Walk) (element : PathElement)
    (rest : List PathElement) :
    w.run m (element :: rest) = w.step m element >>= fun next => next.run m rest :=
  List.foldlM_cons ..

theorem run_cons_eq_ok {element : PathElement} {rest : List PathElement}
    {w' : Walk} :
    w.run m (element :: rest) = .ok w' ↔
      ∃ next, Step m w element next ∧ next.run m rest = .ok w' := by
  simp only [run_cons, bind_eq_ok, step_eq_ok]

end Walk

/-- The conditions of a projection are those of a walk along its path, and the
one of the projected column. -/
theorem pathCondition_eq_ok {m : Model} {roles : Roles} {t : Table}
    {projection : Projection} {type : ProjectionType} {p : PathCondition} :
    pathCondition m roles t projection type = .ok p ↔
      ∃ steps name w c, projection.split = .ok (steps, name) ∧
        (Walk.start t).run m steps = .ok w ∧ w.table.column? name = some c ∧
        w.finish (projectedCondition type ⟨w.row, c.name⟩ c roles) = p := by
  unfold pathCondition
  simp only [bind_eq_ok, Walk.column_eq_ok, Prod.exists]
  constructor
  · rintro ⟨steps, name, hsplit, w, hw, c, hc, h⟩
    cases h
    exact ⟨steps, name, w, c, hsplit, hw, hc, rfl⟩
  · rintro ⟨steps, name, w, c, hsplit, hw, hc, rfl⟩
    exact ⟨steps, name, hsplit, w, hw, c, hc, rfl⟩

theorem compileBinding_projection {m : Model} {roles : Roles} {t : Table}
    {alias? : Option String} {b : Binding} {projection : Projection}
    {sql : String} (hclause : b.clause = none)
    (hprojection : b.projection = some projection) :
    compileBinding m roles t alias? b = .ok sql ↔
      ∃ p, pathCondition m roles t projection b.projectionType = .ok p ∧
        p.sql (rowReference t alias?) = sql := by
  unfold compileBinding
  simp only [hclause, hprojection, bind_eq_ok]
  apply exists_congr
  intro p
  apply and_congr_right
  intro _
  constructor
  · intro h
    cases h
    rfl
  · rintro rfl
    rfl

end Guard

end GovernedCatalog
