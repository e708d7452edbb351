import GovernedCatalog.Guard.Column
import GovernedCatalog.Proofs.Fallible
import GovernedCatalog.Proofs.Ordered.Map
import GovernedCatalog.Proofs.Rights.Memory

/-!
# Guards compiled from decisions made afresh

In a faithful context the guard of a column and the filter of a table are those
of the decisions made afresh.  On every row the filter admits what is granted on
the table, and on an admitted row a column is shown where it is granted.
-/

/-!
## Grants on a row

A row grants a right on a table, or on a column of it, if an access list names
the requester or the condition of an effective binding is true on the row.
-/

namespace GovernedCatalog.Guard

/-! ### What guards mean on a row

On a row every condition is true, false or unknown.  A filter admits the row if
it is true there, and a guard of a column shows the value of the column or null. -/

/-- The truth of the conditions on a row; none stands for unknown. -/
abbrev Assignment := String → Option Bool

def either : Option Bool → Option Bool → Option Bool
  | some true, _ | _, some true => some true
  | some false, some false => some false
  | _, _ => none

theorem either_eq_true_iff {p q : Option Bool} :
    either p q = some true ↔ p = some true ∨ q = some true := by
  cases p with
  | none => cases q with
    | none => simp [either]
    | some q => cases q <;> simp [either]
  | some p => cases q with
    | none => cases p <;> simp [either]
    | some q => cases p <;> cases q <;> simp [either]

/-- The truth of the disjunction of some conditions. -/
def anyTruth (truth : Assignment) (conditions : List String) : Option Bool :=
  conditions.foldr (fun c rest => either (truth c) rest) (some false)

theorem anyTruth_eq_true_iff {truth : Assignment} {conditions : List String} :
    anyTruth truth conditions = some true ↔
      ∃ c ∈ conditions, truth c = some true := by
  induction conditions with
  | nil => simp [anyTruth]
  | cons c rest ih =>
      change either (truth c) (anyTruth truth rest) = some true ↔ _
      rw [either_eq_true_iff, ih]
      simp

/-- Whether the filter is true on the row. -/
def RowFilter.Admits (truth : Assignment) : RowFilter → Prop
  | everyRow => True
  | noRow => False
  | anyOf conditions => anyTruth truth conditions = some true

/-- What is shown in place of a value; none stands for null. -/
def Shown.cell (truth : Assignment) (value : Option α) : Shown → Option α
  | always => value
  | never => none
  | whenAny conditions =>
      if anyTruth truth conditions = some true then value else none

/-- The filter of the rows on which one of some conditions holds. -/
def filterOf (conditions : List String) : RowFilter :=
  if conditions.isEmpty then .noRow else .anyOf conditions

theorem filterOf_admits_iff {truth : Assignment} {conditions : List String} :
    (filterOf conditions).Admits truth ↔
      ∃ c ∈ conditions, truth c = some true := by
  unfold filterOf
  cases conditions with
  | nil => simp [RowFilter.Admits]
  | cons c rest => exact anyTruth_eq_true_iff

/-- The guard by some conditions shows the value where one of them holds. -/
theorem shown_cell_of_true {truth : Assignment} {conditions : List String}
    (h : ∃ c ∈ conditions, truth c = some true) (value : Option α) :
    (shown conditions).cell truth value = value := by
  unfold shown
  cases conditions with
  | nil => simp at h
  | cons c rest => exact if_pos (anyTruth_eq_true_iff.2 h)

theorem shown_cell_of_not_true {truth : Assignment} {conditions : List String}
    (h : ¬ ∃ c ∈ conditions, truth c = some true) (value : Option α) :
    (shown conditions).cell truth value = none := by
  unfold shown
  cases conditions with
  | nil => rfl
  | cons c rest => exact if_neg (mt anyTruth_eq_true_iff.1 h)

end GovernedCatalog.Guard

namespace GovernedCatalog

/-! ### Grants -/

theorem Bindings.mem_granting_iff {bindings : Bindings} {right : Right}
    {roles : Roles} {b : Binding} :
    b ∈ bindings.granting right roles ↔
      ∃ name, bindings.get? name = some (.enabled b) ∧
        b.grants right = true ∧ b.inScope roles = true := by
  unfold granting
  rw [List.mem_filter, List.mem_filterMap, Bool.and_eq_true]
  constructor
  · rintro ⟨⟨entry, hentry, henabled⟩, hgrants⟩
    obtain ⟨name, hget⟩ := SortedMap.mem_values_iff.1 hentry
    cases entry with
    | disabled => cases henabled
    | enabled b' =>
        cases henabled
        exact ⟨name, hget, hgrants⟩
  · rintro ⟨name, hget, hgrants⟩
    exact ⟨⟨_, SortedMap.mem_values_iff.2 ⟨name, hget⟩, rfl⟩, hgrants⟩

namespace Guard

variable (m : Model) (roles : Roles) (t : Table) (alias? : Option String)
  (right : Right) (truth : Assignment)

/-- Some of the bindings is enabled, has the requester in its scope, grants the
right, and has a condition that is true on the row. -/
def Bound (bindings : Bindings) : Prop :=
  ∃ name b, bindings.get? name = some (.enabled b) ∧
    b.grants right = true ∧ b.inScope roles = true ∧
      ∃ condition, compileBinding m roles t alias? b = .ok condition ∧
        truth condition = some true

/-- The row grants the right on the table. -/
def TableGranted : Prop :=
  listed (t.aclFor? m) roles right = true ∨
    Bound m roles t alias? right truth t.bindings

/-- The row grants the right on a column of the table. -/
def ColumnGranted (c : Column) : Prop :=
  listed (c.aclFor? m t) roles right = true ∨
    Bound m roles t alias? right truth (t.bindings.overlay c.bindings)

variable {m roles t alias? right truth}

/-- One of the compiled conditions is true where one of the bindings grants. -/
theorem bound_iff {bindings : Bindings} {conditions : List String}
    (h : grantingConditions m roles t bindings alias? right = .ok conditions) :
    Bound m roles t alias? right truth bindings ↔
      ∃ c ∈ conditions, truth c = some true := by
  constructor
  · rintro ⟨name, b, hget, hgrants, hscope, condition, hcompile, htrue⟩
    have hb : b ∈ bindings.granting right roles :=
      Bindings.mem_granting_iff.2 ⟨name, hget, hgrants, hscope⟩
    exact ⟨condition, (mem_mapM_iff h).2 ⟨b, hb, hcompile⟩, htrue⟩
  · rintro ⟨condition, hcondition, htrue⟩
    obtain ⟨b, hb, hcompile⟩ := (mem_mapM_iff h).1 hcondition
    obtain ⟨name, hget, hgrants, hscope⟩ := Bindings.mem_granting_iff.1 hb
    exact ⟨name, b, hget, hgrants, hscope, condition, hcompile, htrue⟩

/-- Bindings that grant have conditions. -/
theorem grantingConditions_ne_nil {bindings : Bindings}
    {conditions : List String} (hgranting : bindings.granting right roles ≠ [])
    (h : grantingConditions m roles t bindings alias? right = .ok conditions) :
    conditions ≠ [] := by
  rintro rfl
  unfold grantingConditions at h
  cases hbindings : bindings.granting right roles with
  | nil => exact hgranting hbindings
  | cons b rest =>
      rw [hbindings, List.mapM_cons] at h
      obtain ⟨_, _, h⟩ := bind_eq_ok.1 h
      obtain ⟨_, _, h⟩ := bind_eq_ok.1 h
      cases h

/-- Bindings of other names do not replace those that grant. -/
theorem Bound.overlay {bindings own : Bindings}
    (h : Bound m roles t alias? right truth bindings)
    (hown : own.keys.any bindings.contains = false) :
    Bound m roles t alias? right truth (bindings.overlay own) := by
  obtain ⟨name, b, hget, hrest⟩ := h
  refine ⟨name, b, ?_, hrest⟩
  have hname : own.get? name = none := by
    refine Option.eq_none_iff_forall_ne_some.2 fun entry hentry => ?_
    refine List.any_eq_false.1 hown name (SortedMap.mem_keys_iff.2 ⟨_, hentry⟩) ?_
    exact SortedMap.contains_iff.2 ⟨_, hget⟩
  rw [SortedMap.get?_overlay, hname, hget]
  rfl

end Guard

end GovernedCatalog

/-! ## Guards and filters -/

namespace GovernedCatalog.Guard

/-- What is shown of a column, by the decisions made afresh. -/
def columnShown (m : Model) (roles : Roles) (c : Column)
    (alias? : Option String) (right : Right) : Except Fault Shown :=
  match decide m roles (.column c) right with
  | .deny => .error (.deniedColumn right c.name c.table)
  | .allow => .ok .always
  | .indeterminate =>
      if restricted m roles c right then
        ((columnConditions m roles c alias? right).map shown).mapError .failed
      else .ok .always

/-- The filter of a table's rows, by the decisions made afresh. -/
def rowFilter (m : Model) (roles : Roles) (t : Table) (alias? : Option String)
    (right : Right) : Except Error RowFilter :=
  match decide m roles (.table t) right with
  | .allow => .ok .everyRow
  | .deny => .ok .noRow
  | .indeterminate =>
      (grantingConditions m roles t t.bindings alias? right).map filterOf

section Faithful

variable {models : Nat → Model} {roles : Roles} {ask : Ask (StateM Context)}
  {m : Model} (hask : Answers models roles ask m)

include hask

theorem compileColumn_projection (hm : m.Addressable) {c : Column}
    (hc : m.Holds (.column c)) (alias? : Option String) (right : Right) :
    Evaluates models roles
      (compileColumn ask m roles c alias? .projection right)
      ((columnShown m roles c alias? right).map (·.sql c alias?)) := by
  unfold compileColumn columnShown
  refine .bind (hask hc right) ?_
  cases decide m roles (.column c) right with
  | allow => exact .pure _
  | deny => exact .pure _
  | indeterminate =>
      refine .bind (hask.isRestricted hm hc right) ?_
      cases restricted m roles c right with
      | false => exact .pure _
      | true =>
          cases hconditions : columnConditions m roles c alias? right with
          | error e => exact .pure _
          | ok conditions => exact .pure _

theorem compileTable_filter {t : Table} (ht : m.Holds (.table t))
    (alias? : Option String) (right : Right) :
    Evaluates models roles (compileTable ask m roles t alias? right)
      ((rowFilter m roles t alias? right).map RowFilter.sql) := by
  unfold compileTable rowFilter
  refine .bind (hask ht right) ?_
  cases decide m roles (.table t) right with
  | allow => exact .pure _
  | deny => exact .pure _
  | indeterminate =>
      cases grantingConditions m roles t t.bindings alias? right with
      | error e => exact .pure _
      | ok conditions => exact .pure _

end Faithful

section Exact

variable {m : Model} {roles : Roles} {t : Table} {c : Column}
  {alias? : Option String} {right : Right} {truth : Assignment}

/-- A table that is not denied is allowed if a list names the requester. -/
theorem listed_table_iff (ht : decide m roles (.table t) right ≠ .deny) :
    decide m roles (.table t) right = .allow ↔
      listed (t.aclFor? m) roles right = true := by
  rw [decide_table_of_ne_deny ht, verdict_eq_allow_iff]

theorem listed_column_iff (hc : m.tableOf? c.table = some t)
    (h : decide m roles (.column c) right ≠ .deny) :
    decide m roles (.column c) right = .allow ↔
      listed (c.aclFor? m t) roles right = true := by
  rw [decide_column_of_ne_deny hc h, verdict_eq_allow_iff]

/-- The filter admits exactly the rows that are granted on the table. -/
theorem rowFilter_admits_iff {filter : RowFilter}
    (h : rowFilter m roles t alias? right = .ok filter)
    (ht : decide m roles (.table t) right ≠ .deny) :
    filter.Admits truth ↔ TableGranted m roles t alias? right truth := by
  unfold rowFilter at h
  cases hdecide : decide m roles (.table t) right with
  | deny => exact absurd hdecide ht
  | allow =>
      rw [hdecide] at h
      cases h
      exact iff_of_true trivial (.inl ((listed_table_iff ht).1 hdecide))
  | indeterminate =>
      have hunlisted : ¬ listed (t.aclFor? m) roles right = true := by
        rw [← listed_table_iff ht, hdecide]
        nofun
      rw [hdecide] at h
      obtain ⟨conditions, hconditions, rfl⟩ := map_eq_ok.1 h
      rw [filterOf_admits_iff, ← bound_iff hconditions]
      exact (or_iff_right hunlisted).symm

/-- A column that is not restricted is granted wherever its table is. -/
theorem columnGranted_of_not_restricted (hc : m.tableOf? c.table = some t)
    (ht : decide m roles (.table t) right ≠ .deny)
    (hcolumn : decide m roles (.column c) right ≠ .allow)
    (hrestricted : restricted m roles c right = false)
    (hgranted : TableGranted m roles t alias? right truth) :
    ColumnGranted m roles t alias? right truth c := by
  unfold restricted at hrestricted
  rw [if_neg hcolumn, hc] at hrestricted
  by_cases htable : decide m roles (.table t) right = .allow
  · simp [htable] at hrestricted
  · simp only [if_neg htable] at hrestricted
    -- A binding of the table is true on the row, and the column keeps it.
    rcases hgranted with hlisted | hbound
    · exact absurd ((listed_table_iff ht).2 hlisted) htable
    · exact .inr (hbound.overlay hrestricted)

/-- Why a column is shown as it is. -/
inductive Shows (m : Model) (roles : Roles) (c : Column)
    (alias? : Option String) (right : Right) : Shown → Prop where
  | allowed (hdecide : decide m roles (.column c) right = .allow) :
      Shows m roles c alias? right .always
  | covered (hdecide : decide m roles (.column c) right = .indeterminate)
      (hrestricted : restricted m roles c right = false) :
      Shows m roles c alias? right .always
  | guarded (hdecide : decide m roles (.column c) right = .indeterminate)
      {conditions : List String}
      (hconditions :
        columnConditions m roles c alias? right = .ok conditions) :
      Shows m roles c alias? right (shown conditions)

theorem shows_of_columnShown {s : Shown}
    (h : columnShown m roles c alias? right = .ok s) :
    Shows m roles c alias? right s := by
  unfold columnShown at h
  cases hdecide : decide m roles (.column c) right with
  | deny =>
      rw [hdecide] at h
      cases h
  | allow =>
      rw [hdecide] at h
      cases h
      exact .allowed hdecide
  | indeterminate =>
      rw [hdecide] at h
      cases hrestricted : restricted m roles c right with
      | false =>
          rw [hrestricted] at h
          cases h
          exact .covered hdecide hrestricted
      | true =>
          simp only [hrestricted, if_true] at h
          obtain ⟨conditions, hconditions, rfl⟩ :=
            map_eq_ok.1 (mapError_eq_ok.1 h)
          exact .guarded hdecide hconditions

/-- The column's conditions are those of its effective bindings. -/
theorem bound_iff_of_columnConditions (hc : m.tableOf? c.table = some t)
    {conditions : List String}
    (h : columnConditions m roles c alias? right = .ok conditions) :
    Bound m roles t alias? right truth (t.bindings.overlay c.bindings) ↔
      ∃ condition ∈ conditions, truth condition = some true := by
  unfold columnConditions at h
  rw [hc] at h
  exact bound_iff h

/-- On a row that is granted on the table, the value of a column is shown if it
is granted on the column, and null is shown otherwise. -/
theorem Shows.cell {s : Shown} (hs : Shows m roles c alias? right s)
    (hc : m.tableOf? c.table = some t)
    (ht : decide m roles (.table t) right ≠ .deny)
    (hgranted : TableGranted m roles t alias? right truth)
    (value : Option α) :
    (ColumnGranted m roles t alias? right truth c →
        s.cell truth value = value) ∧
      (¬ ColumnGranted m roles t alias? right truth c →
        s.cell truth value = none) := by
  cases hs with
  | allowed hdecide =>
      have hlisted := (listed_column_iff hc (hdecide ▸ nofun)).1 hdecide
      exact ⟨fun _ => rfl, fun hnot => absurd (.inl hlisted) hnot⟩
  | covered hdecide hrestricted =>
      refine ⟨fun _ => rfl, fun hnot => absurd ?_ hnot⟩
      exact columnGranted_of_not_restricted hc ht (hdecide ▸ nofun) hrestricted
        hgranted
  | guarded hdecide hconditions =>
      have hunlisted : ¬ listed (c.aclFor? m t) roles right = true := by
        rw [← listed_column_iff hc (hdecide ▸ nofun), hdecide]
        nofun
      have hiff : ColumnGranted m roles t alias? right truth c ↔
          ∃ condition ∈ _, truth condition = some true :=
        (or_iff_right hunlisted).trans
          (bound_iff_of_columnConditions hc hconditions)
      exact ⟨fun h => shown_cell_of_true (hiff.1 h) value, fun h =>
        shown_cell_of_not_true (mt hiff.2 h) value⟩

/-- A column that is shown without a guard shows nothing that its guard would
hide on a row that is granted on the table. -/
theorem Shows.guard_cell (hs : Shows m roles c alias? right .always)
    (hc : m.tableOf? c.table = some t)
    (ht : decide m roles (.table t) right ≠ .deny)
    (hgranted : TableGranted m roles t alias? right truth)
    (hunlisted : listed (c.aclFor? m t) roles right = false)
    {conditions : List String}
    (hconditions : columnConditions m roles c alias? right = .ok conditions)
    (value : Option α) :
    (shown conditions).cell truth value = value := by
  have hcolumn : ColumnGranted m roles t alias? right truth c := by
    by_contra hnot
    have hnull := (hs.cell hc ht hgranted (some ())).2 hnot
    cases hnull
  have hbound := hcolumn.resolve_left (by simp [hunlisted])
  exact shown_cell_of_true
    ((bound_iff_of_columnConditions hc hconditions).1 hbound) value

end Exact

end GovernedCatalog.Guard
