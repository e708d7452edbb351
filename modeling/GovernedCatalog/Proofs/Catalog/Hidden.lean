import GovernedCatalog.Proofs.Catalog.Query
import GovernedCatalog.Proofs.Model.History
import GovernedCatalog.Proofs.Rights.Redaction

/-!
# Hidden entities

A requester cannot tell a catalog in which an entity is hidden from them from
one in which the entity does not exist.  Both give them the same document, and
the same errors for requests that name the entity or something in it.
-/

namespace GovernedCatalog

namespace Query

open Guard

variable {m : Model} {roles : Roles} {path : TablePath} {name : String}

/-- Why a request for a column is refused before the right to select is asked
for: because of its table, or because there is no such column in sight. -/
inductive ColumnRefused (m : Model) (roles : Roles) (path : TablePath)
    (name : String) : Fault → Prop
  | table {fault : Fault} (h : selectableTable m roles path = .error fault) :
      ColumnRefused m roles path name fault
  | column {t : Table} (ht : selectableTable m roles path = .ok t)
      (h : ∀ c, t.column? name = some c →
        decide m roles (.column c) .enumerate = .deny) :
      ColumnRefused m roles path name (.failed (.hiddenColumn name path))

/-! ## Requests that are refused -/

section Refused

variable {models : Nat → Model} {ask : Ask (StateM Context)}
  (hask : Answers models roles ask m.visiblePart)
  (hm : m.visiblePart.Addressable) {fault : Fault}

include hask hm

theorem select_refused
    (h : selectableTable m.visiblePart roles path = .error fault) :
    Evaluates models roles (select ask m roles path).run (.error fault) := by
  have hselectable := selectable_evaluates hask hm path
  rw [h] at hselectable
  exact .bindError hselectable

theorem column_refused
    (h : ColumnRefused m.visiblePart roles path name fault) :
    Evaluates models roles (column ask m roles path name).run
      (.error fault) := by
  have hselectable := selectable_evaluates hask hm path
  cases h with
  | table h =>
      rw [h] at hselectable
      exact .bindError hselectable
  | @column t htable h =>
      rw [htable] at hselectable
      refine .bindOk hselectable ?_
      cases hc : t.column? name with
      | none => exact .pure _
      | some c =>
          have ht := hm.tableOf?_of_table? (selectableTable_eq_ok htable).1
          have hholds := hm.holds_of_column? ht hc
          refine .bindOk (.liftOk (hask.isVisible hholds)) ?_
          rw [h c hc]
          exact .pure _

end Refused

/-! ## Requests for what is removed -/

section Removed

variable (hm : m.Addressable) {r : Removal}

theorem selectableTable_of_none (h : m.table? path = none) :
    selectableTable m roles path = .error (.failed (.hiddenTable path)) := by
  unfold selectableTable
  cases htable : m.table path with
  | error e => rfl
  | ok t =>
      rw [Model.table_eq_ok_iff.1 htable] at h
      cases h

include hm

theorem selectableTable_kept (hkept : r.removes (.table path) = false) :
    selectableTable (m.without r) roles path =
      (selectableTable m roles path).map (·.without r) := by
  cases ht : m.table? path with
  | none =>
      have ht' : (m.without r).table? path = none := by
        rw [hm.toNamed.table?_without, ht]
        exact ite_self none
      rw [selectableTable_of_none ht, selectableTable_of_none ht']
      rfl
  | some t =>
      have hdecide : ∀ right,
          decide (m.without r) roles (.table (t.without r)) right =
            decide m roles (.table t) right :=
        fun _ => hm.decide_table_kept ht hkept
      unfold selectableTable
      rw [Model.table_eq_ok_iff.2 ht,
        Model.table_eq_ok_iff.2 (hm.toNamed.table?_kept ht hkept)]
      dsimp only
      rw [hdecide, hdecide]
      split
      · rfl
      · split <;> rfl

variable (hr : r.Unseen m roles)

include hr

theorem selectableTable_removed (hremoved : r.removes (.table path) = true) :
    selectableTable m roles path = .error (.failed (.hiddenTable path)) ∧
      selectableTable (m.without r) roles path =
        .error (.failed (.hiddenTable path)) := by
  have ht' : (m.without r).table? path = none := by
    rw [hm.toNamed.table?_without]
    exact if_pos hremoved
  refine ⟨?_, selectableTable_of_none ht'⟩
  cases ht : m.table? path with
  | none => exact selectableTable_of_none ht
  | some t =>
      unfold selectableTable
      rw [Model.table_eq_ok_iff.2 ht]
      dsimp only
      rw [if_pos (by simp [hr.table ht hremoved])]

theorem column_removed (hremoved : r.removes (.column path name) = true) :
    ∃ fault, ColumnRefused m roles path name fault ∧
      ColumnRefused (m.without r) roles path name fault := by
  cases htable : r.removes (.table path) with
  | true =>
      obtain ⟨hbefore, hafter⟩ := selectableTable_removed hm hr htable
      exact ⟨_, .table hbefore, .table hafter⟩
  | false =>
      have hafter : selectableTable (m.without r) roles path =
          (selectableTable m roles path).map (·.without r) :=
        selectableTable_kept hm htable
      cases hbefore : selectableTable m roles path with
      | error fault =>
          rw [hbefore] at hafter
          exact ⟨fault, .table hbefore, .table hafter⟩
      | ok t =>
          rw [hbefore] at hafter
          have ht := (selectableTable_eq_ok hbefore).1
          have hgone : (t.without r).column? name = none := by
            rw [t.column?_without, (hm.table ht).path_eq]
            exact if_pos hremoved
          refine ⟨_, .column hbefore fun c hc => hr.column ht hc hremoved,
            .column hafter fun c hc => ?_⟩
          rw [hgone] at hc
          cases hc

end Removed

end Query

/-- What an evaluation gives in a fresh context. -/
theorem Snapshot.evaluate_fresh {s : Snapshot}
    (hm : s.model.visiblePart.Addressable) {roles : Roles} {α : Type}
    {evaluation : Ask (StateM Context) → StateM Context α} {a : α}
    (h : ∀ ask, Answers (fun _ => s.model.visiblePart) roles ask
        s.model.visiblePart →
      Evaluates (fun _ => s.model.visiblePart) roles (evaluation ask) a) :
    (s.evaluate (.fresh roles) evaluation).1 = a :=
  s.evaluate_of_answers (s.answers_visiblePart hm rfl roles) h

/-- What hides a part of a model hides it in the visible part. -/
theorem Model.Hides.visiblePart {m : Model}
    (hm : m.visiblePart.Addressable) {roles : Roles} {p : Part}
    (h : m.Hides roles p) : m.visiblePart.Hides roles p := by
  obtain ⟨e, he, hdeny⟩ := h
  refine ⟨e, he, ?_⟩
  have hsame : decide m roles e .enumerate =
      decide m.visiblePart roles e .enumerate :=
    Rule.decide_visiblePart Rule.afresh roles .enumerate hm
      (hm.holds_of_entity he)
  rw [← hsame]
  exact hdeny

namespace Catalog

/-- In fresh contexts, requesters with the roles get the same document of both
catalogs, and the same errors for requests that name the part or something in
it. -/
structure Indistinct (c c' : Catalog) (roles : Roles) (p : Part) : Prop where
  document : (c.render (.fresh roles)).1 = (c'.render (.fresh roles)).1
  select : ∀ path, (Removal.within p).removes (.table path) = true →
    ∃ fault, (c.select (.fresh roles) path).1 = .error fault ∧
      (c'.select (.fresh roles) path).1 = .error fault
  column : ∀ path name,
    (Removal.within p).removes (.column path name) = true →
      ∃ fault, (c.column (.fresh roles) path name).1 = .error fault ∧
        (c'.column (.fresh roles) path name).1 = .error fault

section Fresh

variable {c : Catalog} {roles : Roles}

theorem render_fresh (hm : c.cell.model.Named)
    (hapart :
      c.cell.model.schemas.get? c.cell.model.systemSchema.name = none) :
    (c.render (.fresh roles)).1 =
      Id.run (Render.catalog (Render.afresh c.cell.model.visiblePart roles)
        c.cell.model.visiblePart) := by
  have haddressable := hm.visiblePart_addressable hapart
  refine c.cell.snapshot.evaluate_fresh haddressable fun ask hask => ?_
  rw [Render.catalog_visiblePart ask hm hapart]
  exact Render.catalog_evaluates hask haddressable

variable (hm : c.cell.model.visiblePart.Addressable) {path : TablePath}
  {fault : Guard.Fault}

include hm

theorem select_fresh
    (h : Query.selectableTable c.cell.model.visiblePart roles path =
      .error fault) :
    (c.select (.fresh roles) path).1 = .error fault :=
  c.cell.snapshot.evaluate_fresh hm fun _ hask =>
    Query.select_refused hask hm h

theorem column_fresh {name : String}
    (h : Query.ColumnRefused c.cell.model.visiblePart roles path name fault) :
    (c.column (.fresh roles) path name).1 = .error fault :=
  c.cell.snapshot.evaluate_fresh hm fun _ hask =>
    Query.column_refused hask hm h

end Fresh

/-- The existence of a hidden part of a model cannot be observed: dropping it
succeeds, and leaves everything that its requester can see as it was. -/
theorem drop_unobservable {m : Model} (hm : m.Closed)
    (hapart : m.schemas.get? m.systemSchema.name = none) {roles : Roles}
    {p : Part} (hhidden : m.Hides roles p) :
    ∃ statements m', p.drop.run.run m = (.ok statements, m') ∧
      ∀ c c' : Catalog, c.cell.model = m → c'.cell.model = m' →
        Indistinct c c' roles p := by
  have hhas : m.Has p := hhidden.imp fun _ h => h.1
  obtain ⟨statements, hdrop, _⟩ := hm.drop_removes hhas
  refine ⟨statements, m.without (.of p), hdrop, ?_⟩
  have hbefore := hm.named.visiblePart_addressable hapart
  have hunseen := (hhidden.visiblePart hbefore).unseen hm.visiblePart hbefore
  have hnamed := hm.named.without (.of p)
  -- The visible part of what is left is what is left of the visible part.
  have hafter : (m.without (.of p)).visiblePart.Addressable :=
    hbefore.without (.of p)
  rintro ⟨_, ⟨_, _⟩, _⟩ ⟨_, ⟨_, _⟩, _⟩ rfl rfl
  constructor
  · rw [render_fresh hm.named hapart, render_fresh hnamed hafter.system_apart]
    exact (Render.catalog_kept hbefore hm.visiblePart hunseen).symm
  · intro path hwithin
    obtain ⟨hfault, hfault'⟩ := Query.selectableTable_removed hbefore hunseen
      (Removal.of_removes_within hwithin)
    exact ⟨_, select_fresh hbefore hfault, select_fresh hafter hfault'⟩
  · intro path name hwithin
    obtain ⟨fault, hfault, hfault'⟩ := Query.column_removed hbefore hunseen
      (Removal.of_removes_within hwithin)
    exact ⟨fault, column_fresh hbefore hfault, column_fresh hafter hfault'⟩

/-- Staff whose notes everyone sees, and whose people nobody does. -/
def discreet : Model :=
  let people : Address := .table ⟨"staff", "people"⟩
  let staff := (Model.fresh "sys").after Model.staff
  let discreet := staff.setAcls people (.ofList [(.enumerate, [])])
  discreet.setAcls .catalog (.ofList [(.enumerate, ["*"])])

theorem discreet_closed : discreet.Closed := by
  have hm := Model.after_closed (Model.fresh_closed "sys") Model.staff_built
  unfold discreet
  exact (hm.setAcls _ _).setAcls _ _

theorem drop_unobservable_discreet :
    let people : Part := .table ⟨"staff", "people"⟩
    discreet.Closed ∧
      discreet.schemas.get? discreet.systemSchema.name = none ∧
      discreet.Hides {} people ∧
      ¬discreet.Hides {} (.table ⟨"staff", "notes"⟩) ∧
      ∃ statements m', people.drop.run.run discreet = (.ok statements, m') ∧
        ∀ c c' : Catalog, c.cell.model = discreet → c'.cell.model = m' →
          Indistinct c c' {} people := by
  have hapart : discreet.schemas.get? discreet.systemSchema.name = none := rfl
  have hhidden : discreet.Hides {} (.table ⟨"staff", "people"⟩) :=
    ⟨_, rfl, by decide +kernel⟩
  refine ⟨discreet_closed, hapart, hhidden, ?_,
    drop_unobservable discreet_closed hapart hhidden⟩
  rintro ⟨e, he, hdeny⟩
  cases he
  revert hdeny
  decide +kernel

end Catalog

end GovernedCatalog
