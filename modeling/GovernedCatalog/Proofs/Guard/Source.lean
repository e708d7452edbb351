import GovernedCatalog.Guard.Column
import GovernedCatalog.Proofs.Policy.Validity

/-!
# Conditions of valid bindings

The compiler looks for a source of a binding's condition.  It finds one in every
valid binding, and nothing else that goes wrong in a condition is reported as a
lack of it.
-/

namespace GovernedCatalog

theorem ColumnType.literal_avoids (t : ColumnType) (value : Json) :
    Avoids (t.literal value) .bindingWithoutSource := by
  induction t generalizing value with
  | array base ih =>
      cases value with
      | arr items =>
          exact .bind (.mapM fun item _ => ih item) fun _ => .ok
      | _ => exact .error (by simp)
  | scalar name =>
      unfold literal
      cases constantText? name value with
      | some constant => exact .ok
      | none => exact .error (by simp)
  | domain name base =>
      unfold literal
      cases constantText? name value with
      | some constant => exact .ok
      | none => exact .error (by simp)

namespace Guard

namespace Walk

variable (w : Walk) (m : Model)

theorem column_avoids (name : String) :
    Avoids (w.column name) .bindingWithoutSource := by
  unfold column
  cases w.table.column? name with
  | some c => exact .ok
  | none => exact .error (by simp)

theorem reference_avoids (direction : Direction) (constraint : ConstraintName) :
    Avoids (w.reference m direction constraint) .bindingWithoutSource := by
  unfold reference
  cases direction with
  | outbound =>
      cases w.table.referenceNamed? constraint with
      | some r => exact .ok
      | none => exact .error (by simp)
  | inbound =>
      cases m.inboundReferences w.table.path with
      | error cause => exact .error (by simp)
      | ok references =>
          dsimp only
          cases references.find? fun r => r.constraints.contains constraint with
          | some r => exact .ok
          | none => exact .error (by simp)

theorem follow_avoids (direction : Direction) (r : Reference) :
    Avoids (w.follow m direction r) .bindingWithoutSource := by
  unfold follow
  extract_lets path
  cases m.tableOf? path with
  | none => exact .error (by simp)
  | some next => exact .ok

theorem filterCondition_avoids (field : Field) (type : ColumnType)
    (operand : Json) (operator : String) :
    Avoids (filterCondition field type operand operator)
      .bindingWithoutSource := by
  unfold filterCondition
  extract_lets pattern
  have hpattern : ∀ caseSensitive,
      Avoids (pattern caseSensitive) .bindingWithoutSource := by
    intro caseSensitive
    cases operand with
    | str p => exact .ok
    | _ => exact .error (by simp)
  split
  · exact .ok
  · exact hpattern true
  · exact hpattern false
  · cases Comparison.ofOperator? operator with
    | some comparison => exact (type.literal_avoids operand).map _
    | none => exact .error (by simp)

theorem step_avoids (element : PathElement) :
    Avoids (w.step m element) .bindingWithoutSource := by
  cases element with
  | follow direction constraint =>
      exact (w.reference_avoids m direction constraint).bind fun r =>
        w.follow_avoids m direction r
  | filter name operand operator =>
      exact (w.column_avoids name).bind fun column =>
        .bind (filterCondition_avoids _ _ _ _) fun _ => .ok
  | column name => exact .error (by simp)

end Walk

theorem pathCondition_avoids (m : Model) (roles : Roles) (t : Table)
    (projection : Projection) (type : ProjectionType) :
    Avoids (pathCondition m roles t projection type) .bindingWithoutSource := by
  have hsplit : Avoids projection.split .bindingWithoutSource := by
    cases projection with
    | column name => exact .ok
    | path elements =>
        unfold Projection.split
        dsimp only
        split
        · exact .ok
        · exact .error (by simp)
  exact hsplit.bind fun (_, name) =>
    (Avoids.foldlM fun w element => w.step_avoids m element).bind fun w =>
      (w.column_avoids name).bind fun _ => .ok

theorem checkClause_avoids (clause : String) :
    Avoids (Sql.checkClause clause) .bindingWithoutSource := by
  unfold Sql.checkClause
  cases Sql.clauseFault? clause with
  | none => exact .ok
  | some fault => exact .error (by simp)

/-- No valid binding fails to compile for lack of a projection or a clause. -/
theorem compileBinding_avoids {kind : AclKind} {b : Binding}
    (hb : b.WellFormed kind) (m : Model) (roles : Roles) (t : Table)
    (alias? : Option String) :
    Avoids (compileBinding m roles t alias? b) .bindingWithoutSource := by
  have hsource := hb.one_source
  unfold compileBinding
  extract_lets outer
  cases hclause : b.clause with
  | some clause => exact (checkClause_avoids _).bind fun _ => .ok
  | none =>
      cases hprojection : b.projection with
      | some projection =>
          exact (pathCondition_avoids m roles t projection _).bind fun _ => .ok
      | none => simp [hclause, hprojection] at hsource

end Guard

end GovernedCatalog
