import GovernedCatalog.Rights.Rule

/-!
# Decisions made afresh

What the rules say of each kind of entity in terms of the decisions on the
entities that it depends on.
-/

namespace GovernedCatalog

/-- Nothing is recalled. -/
def Rule.afresh : Recall Id := fun _ _ fresh => fresh

variable (m : Model) (roles : Roles) (right : Right)

theorem decide_table (t : Table) :
    decide m roles (.table t) right =
      match m.schemaOf? t.schema with
      | none => .deny
      | some s =>
          if decide m roles (.schema s) .enumerate = .deny then .deny
          else verdict (t.aclFor? m) t.bindings roles right := by
  change Rule.onTable Rule.afresh m roles t right = _
  unfold Rule.onTable
  cases m.schemaOf? t.schema with
  | none => rfl
  | some s => rfl

theorem decide_column (c : Column) :
    decide m roles (.column c) right =
      match m.tableOf? c.table with
      | none => .deny
      | some t =>
          if decide m roles (.table t) right = .deny then .deny
          else
            verdict (c.aclFor? m t) (t.bindings.overlay c.bindings) roles
              right := by
  change Rule.onColumn Rule.afresh m roles c right = _
  unfold Rule.onColumn
  cases m.tableOf? c.table with
  | none => rfl
  | some t => rfl

section

variable {m roles right}

theorem verdict_eq_allow_iff {aclFor? : Right → Option (List String)}
    {bindings : Bindings} :
    verdict aclFor? bindings roles right = .allow ↔
      listed aclFor? roles right = true := by
  unfold verdict
  by_cases hlisted : listed aclFor? roles right = true
  · simp [hlisted]
  · rw [if_neg hlisted]
    split <;> simp [hlisted]

theorem verdict_eq_indeterminate_iff {aclFor? : Right → Option (List String)}
    {bindings : Bindings} :
    verdict aclFor? bindings roles right = .indeterminate ↔
      listed aclFor? roles right = false ∧ bindings.granting right roles ≠ [] := by
  unfold verdict
  cases listed aclFor? roles right with
  | true => simp
  | false => cases bindings.granting right roles <;> simp

/-- A table that is not denied is decided by its lists and bindings. -/
theorem decide_table_of_ne_deny {t : Table}
    (h : decide m roles (.table t) right ≠ .deny) :
    decide m roles (.table t) right =
      verdict (t.aclFor? m) t.bindings roles right := by
  rw [decide_table] at h ⊢
  cases hs : m.schemaOf? t.schema with
  | none =>
      rw [hs] at h
      exact absurd rfl h
  | some s =>
      rw [hs] at h
      exact if_neg fun hdeny => h (if_pos hdeny)

/-- A column that is not denied is decided by its lists and bindings with those
of its table. -/
theorem decide_column_of_ne_deny {t : Table} {c : Column}
    (ht : m.tableOf? c.table = some t)
    (h : decide m roles (.column c) right ≠ .deny) :
    decide m roles (.column c) right =
      verdict (c.aclFor? m t) (t.bindings.overlay c.bindings) roles right := by
  rw [decide_column, ht] at h ⊢
  exact if_neg fun hdeny => h (if_pos hdeny)

/-- The table of a column that is not denied is not denied. -/
theorem decide_table_ne_deny {t : Table} {c : Column}
    (ht : m.tableOf? c.table = some t)
    (h : decide m roles (.column c) right ≠ .deny) :
    decide m roles (.table t) right ≠ .deny := by
  intro hdeny
  rw [decide_column, ht] at h
  exact h (if_pos hdeny)

end

/-- The weakest of the decisions on some columns of a table. -/
def decideColumns (t : Table) (names : List String) : Decision :=
  Id.run (Rule.onColumns Rule.afresh m roles t right names)

theorem decideColumns_cons (t : Table) (name : String) (rest : List String) :
    decideColumns m roles right t (name :: rest) =
      (match t.column? name with
        | some c => decide m roles (.column c) right
        | none => .deny).and (decideColumns m roles right t rest) := by
  rw [decideColumns, Rule.onColumns]
  cases t.column? name with
  | none => rfl
  | some c => rfl

theorem decide_key (k : UniqueKey) :
    decide m roles (.key k) right =
      match m.tableOf? k.table with
      | none => .deny
      | some t => decideColumns m roles right t k.columns.elems := by
  change Rule.onKey Rule.afresh m roles k right = _
  unfold Rule.onKey
  cases m.tableOf? k.table with
  | none => rfl
  | some t => rfl

/-- Whether some of the columns is missing from a table or denied. -/
def someColumnDenied (t : Table) (names : List String) : Bool :=
  Id.run (Rule.someDenied Rule.afresh m roles t right names)

theorem someColumnDenied_cons (t : Table) (name : String) (rest : List String) :
    someColumnDenied m roles right t (name :: rest) =
      match t.column? name with
      | none => true
      | some c =>
          if decide m roles (.column c) right = .deny then true
          else someColumnDenied m roles right t rest := by
  rw [someColumnDenied, Rule.someDenied]
  cases t.column? name with
  | none => rfl
  | some c =>
      change Id.run (if decide m roles (.column c) right = .deny then _ else _)
        = _
      dsimp only
      split <;> rfl

theorem decide_reference (r : Reference) :
    decide m roles (.reference r) right =
      match m.referencedKey r.mapping with
      | .error _ => .deny
      | .ok key =>
          if decide m roles (.key key) .enumerate = .deny then .deny
          else
            match m.tableOf? r.source with
            | none => .deny
            | some t =>
                if someColumnDenied m roles right t
                    r.mapping.fromColumns.elems then .deny
                else verdict (r.aclFor? m t) r.bindings roles right := by
  change Rule.onReference Rule.afresh m roles r right = _
  unfold Rule.onReference
  cases m.referencedKey r.mapping with
  | error e => rfl
  | ok key =>
      change (if decide m roles (.key key) .enumerate = .deny then _ else _) = _
      dsimp only
      split
      · rfl
      · cases m.tableOf? r.source with
        | none => rfl
        | some t => rfl

/-- The strongest of the decisions on some references. -/
def decideReferences (references : List Reference) : Decision :=
  Id.run (Rule.onReferences Rule.afresh m roles right references)

theorem decideReferences_cons (r : Reference) (rest : List Reference) :
    decideReferences m roles right (r :: rest) =
      (decide m roles (.reference r) right).or
        (decideReferences m roles right rest) := rfl

theorem decide_foreignKey (fk : ForeignKey) :
    decide m roles (.foreignKey fk) right =
      match m.tableOf? fk.table with
      | none => .deny
      | some t =>
          (decideColumns m roles right t fk.columns.elems).and
            (decideReferences m roles right fk.references.values) := by
  change Rule.onForeignKey Rule.afresh m roles fk right = _
  unfold Rule.onForeignKey
  cases m.tableOf? fk.table with
  | none => rfl
  | some t => rfl

end GovernedCatalog
