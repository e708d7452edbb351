import GovernedCatalog.Proofs.Rights.Strength
import GovernedCatalog.Proofs.Rights.Visible

/-!
# What columns inherit

A column without bindings of its own is decided like its table wherever the same
lists name the requester.  That is so for a column without lists, and for rights
that need no list that a column can have.  The right to delete is implied by the
right to write, of which a column can have a list: the list of the column then
counts in place of the one that the table has.
-/

namespace GovernedCatalog

/-! ## Tables of a model -/

/-- A visible table, or a table of the system schema if the entities of that are
told apart as well. -/
inductive Model.HasTable (m : Model) (t : Table) : Prop where
  | visible {path : TablePath} (h : m.table? path = some t)
  | system (hm : m.Addressable) {name : String}
      (h : m.systemSchema.tables.get? name = some t)

/-- A part of a model, in which a table and what is in it is decided as in the
model. -/
structure Model.Decides (m part : Model) (t : Table) : Prop where
  addressable : part.Addressable
  table : part.tableOf? t.path = some t
  tableOf?_eq : m.tableOf? t.path = some t
  rules : ∀ {μ : Type → Type} [Monad μ] (known : Recall μ) (roles : Roles)
    (right : Right) {e : Entity}, part.Holds e →
      Rule.decide known m roles e right = Rule.decide known part roles e right

/-- A table is decided in the visible part of the model, or in all of it. -/
theorem Model.HasTable.decided {m : Model} {t : Table} (h : m.HasTable t)
    (hm : m.Closed)
    (hapart : m.schemas.get? m.systemSchema.name = none) :
    ∃ part, m.Decides part t := by
  cases h with
  | visible ht =>
      have hpart := hm.named.visiblePart_addressable hapart
      have htable := hpart.tableOf?_of_table? ht
      rw [← (hm.table ht).path_eq] at htable
      exact ⟨m.visiblePart, {
        addressable := hpart
        table := htable
        tableOf?_eq := (tableOf?_visiblePart
          (schema_ne_of_tableOf? htable)).trans htable
        rules := fun known roles right _ he =>
          Rule.decide_visiblePart known roles right hpart he }⟩
  | system hall ht =>
      have htable : m.tableOf? t.path = some t := by
        rw [(hall.system_table ht).path_eq]
        exact Option.bind_eq_some_iff.2 ⟨m.systemSchema, if_pos rfl, ht⟩
      exact ⟨m, hall, htable, htable, fun _ _ _ _ _ => rfl⟩

namespace Model.Decides

variable {m part : Model} {t : Table} (h : m.Decides part t)

include h

theorem column_table {c : Column} (hc : c ∈ t.columns) : c.table = t.path :=
  (h.addressable.tableOf?_named h.table).column_table c hc

theorem tableOf?_column {c : Column} (hc : c ∈ t.columns) :
    m.tableOf? c.table = some t := by
  rw [h.column_table hc]
  exact h.tableOf?_eq

theorem holds_table : part.Holds (.table t) := Model.holds_table.2 h.table

theorem holds_column {c : Column} (hc : c ∈ t.columns) :
    part.Holds (.column c) :=
  h.addressable.holds_of_mem_columns h.table hc

/-- What an evaluation about the table gives in a fresh context. -/
theorem evaluate_fresh {stamp : Nat} {roles : Roles} {α : Type}
    {evaluation : Ask (StateM Context) → StateM Context α} {a : α}
    (heval : ∀ ask, Answers (fun _ => part) roles ask part →
      Evaluates (fun _ => part) roles (evaluation ask) a) :
    ((⟨stamp, m⟩ : Snapshot).evaluate (.fresh roles) evaluation).1 = a := by
  have hanswers : Answers (fun _ => part) roles
      ((⟨stamp, m⟩ : Snapshot).ask roles) part :=
    Snapshot.answers_of_rules _ h.addressable rfl fun he right =>
      h.rules _ roles right he
  exact Snapshot.evaluate_of_answers _ hanswers heval

theorem decide_eq {e : Entity} (he : part.Holds e) (roles : Roles)
    (right : Right) :
    decide part roles e right = decide m roles e right :=
  (h.rules Rule.afresh roles right he).symm

theorem decision_eq {stamp : Nat} {e : Entity} (he : part.Holds e)
    (roles : Roles) (right : Right) :
    (⟨stamp, m⟩ : Snapshot).decision roles e right = decide m roles e right := by
  rw [← h.decide_eq he]
  exact h.evaluate_fresh fun _ hask => hask he right

end Model.Decides

/-! ## The lists that name a requester -/

/-- Whether the list of a right names the requester. -/
def lists (aclFor? : Right → Option (List String)) (roles : Roles)
    (right : Right) : Bool :=
  (aclFor? right).any fun members => rolesMatch members roles

theorem listed_congr {aclFor? aclFor?' : Right → Option (List String)}
    {right : Right} (h : ∀ r ∈ right.sufficient, aclFor? r = aclFor?' r)
    (roles : Roles) :
    listed aclFor? roles right = listed aclFor?' roles right := by
  unfold listed
  rw [Bool.eq_iff_iff, List.any_eq_true, List.any_eq_true]
  refine exists_congr fun r => and_congr_right fun hr => ?_
  rw [h r hr]

theorem listed_delete (aclFor? : Right → Option (List String)) (roles : Roles) :
    listed aclFor? roles .delete =
      (lists aclFor? roles .delete || (lists aclFor? roles .write ||
        lists aclFor? roles .owner)) := by
  simp [listed, lists, Right.sufficient]

section Column

variable {m : Model} {t : Table} {c : Column}

theorem Column.aclFor?_of_none {right : Right}
    (h : c.acls.listFor? .column right = none) :
    c.aclFor? m t right = t.aclFor? m right := by
  rw [aclFor?, h]
  rfl

/-- The right needs no list that a column can have. -/
theorem Right.unsupported_of_sufficient {right granted : Right}
    (hright : AclKind.column.supports right = false) (hne : right ≠ .delete)
    (hgranted : granted ∈ right.sufficient) :
    AclKind.column.supports granted = false := by
  revert hright hne hgranted
  cases right <;> cases granted <;> decide

theorem Column.listed_of_unsupported {right : Right}
    (hright : AclKind.column.supports right = false) (hne : right ≠ .delete)
    (roles : Roles) :
    listed (c.aclFor? m t) roles right = listed (t.aclFor? m) roles right := by
  refine listed_congr (fun r hr => Column.aclFor?_of_none ?_) roles
  rw [Acls.listFor?, Right.unsupported_of_sufficient hright hne hr]
  rfl

theorem Column.listed_delete_of_none (hwrite : c.acls.get? .write = none)
    (roles : Roles) :
    listed (c.aclFor? m t) roles .delete =
      listed (t.aclFor? m) roles .delete := by
  refine listed_congr (fun r hr => Column.aclFor?_of_none ?_) roles
  simp only [Right.sufficient, List.mem_cons, List.not_mem_nil, or_false] at hr
  rcases hr with rfl | rfl | rfl
  · rfl
  · exact hwrite
  · rfl

/-- The column's own list of writers takes the place of the table's. -/
theorem Column.listed_delete_of_some {members : List String}
    (hwrite : c.acls.get? .write = some members) (roles : Roles) :
    listed (c.aclFor? m t) roles .delete =
      (lists (t.aclFor? m) roles .delete || (rolesMatch members roles ||
        lists (t.aclFor? m) roles .owner)) := by
  have hown : c.aclFor? m t .write = some members := by
    have hlist : c.acls.listFor? .column .write = some members := hwrite
    rw [aclFor?, hlist]
    rfl
  have hdelete : c.aclFor? m t .delete = t.aclFor? m .delete :=
    Column.aclFor?_of_none rfl
  have howner : c.aclFor? m t .owner = t.aclFor? m .owner :=
    Column.aclFor?_of_none rfl
  rw [listed_delete]
  unfold lists
  rw [hown, hdelete, howner]
  rfl

end Column

/-! ## Decisions on columns -/

section Decision

variable {m : Model} {roles : Roles} {right : Right} {t : Table} {c : Column}
  (ht : m.tableOf? c.table = some t) (hbindings : c.bindings = ∅)

include ht hbindings

/-- A column without bindings of its own is decided like its table if the table
is denied, or if the lists of both name the requester or neither's do. -/
theorem decide_column_eq_table_iff :
    decide m roles (.column c) right = decide m roles (.table t) right ↔
      decide m roles (.table t) right = .deny ∨
        listed (c.aclFor? m t) roles right =
          listed (t.aclFor? m) roles right := by
  rw [decide_column, ht, hbindings]
  dsimp only
  rw [SortedMap.overlay_empty]
  by_cases hdeny : decide m roles (.table t) right = .deny
  · simp [hdeny]
  · have htable := decide_table_of_ne_deny hdeny
    simp only [hdeny, if_false, false_or]
    rw [htable]
    rw [htable] at hdeny
    revert hdeny
    unfold verdict
    cases listed (c.aclFor? m t) roles right <;>
      cases listed (t.aclFor? m) roles right <;>
        cases (t.bindings.granting right roles).isEmpty <;> simp

theorem decide_column_of_listed
    (h : listed (c.aclFor? m t) roles right =
      listed (t.aclFor? m) roles right) :
    decide m roles (.column c) right = decide m roles (.table t) right :=
  (decide_column_eq_table_iff ht hbindings).2 (.inr h)

/-- A column without lists and bindings of its own. -/
theorem decide_bare_column (hacls : c.acls = ∅) :
    decide m roles (.column c) right = decide m roles (.table t) right := by
  refine decide_column_of_listed ht hbindings
    (listed_congr (fun r _ => Column.aclFor?_of_none ?_) roles)
  rw [hacls, Acls.listFor?]
  exact ite_self none

/-- The table decides on deletion in a column with a list of its own for writing
if that list does not matter, or names the requester like the inherited one. -/
theorem decide_delete_eq_table_iff {members : List String}
    (hwrite : c.acls.get? .write = some members) :
    decide m roles (.column c) .delete = decide m roles (.table t) .delete ↔
      decide m roles (.table t) .delete = .deny ∨
        lists (t.aclFor? m) roles .delete = true ∨
        lists (t.aclFor? m) roles .owner = true ∨
        rolesMatch members roles = lists (t.aclFor? m) roles .write := by
  rw [decide_column_eq_table_iff ht hbindings,
    Column.listed_delete_of_some hwrite, listed_delete]
  refine or_congr_right ?_
  cases lists (t.aclFor? m) roles .delete <;>
    cases lists (t.aclFor? m) roles .owner <;>
      cases rolesMatch members roles <;>
        cases lists (t.aclFor? m) roles .write <;> simp

end Decision

/-- A right that columns do not carry is decided by the table of a column without
bindings of its own, unless it is the right to delete and the column has a list
of its own for writing.  The table then decides exactly if it is denied, if its
lists for deletion or ownership name the requester, or if the column's list for
writing names the requester just as the inherited one does. -/
theorem Snapshot.decision_unsupported (s : Snapshot) (hclosed : s.model.Closed)
    (hapart : s.model.schemas.get? s.model.systemSchema.name = none)
    {t : Table} (ht : s.model.HasTable t) {c : Column} (hc : c ∈ t.columns)
    (hbindings : c.bindings = ∅) (roles : Roles) {right : Right}
    (hright : AclKind.column.supports right = false) :
    (right ≠ .delete ∨ c.acls.get? .write = none →
      s.decision roles (.column c) right = s.decision roles (.table t) right) ∧
    ∀ members, right = .delete → c.acls.get? .write = some members →
      (s.decision roles (.column c) right = s.decision roles (.table t) right ↔
        s.decision roles (.table t) right = .deny ∨
          lists (t.aclFor? s.model) roles .delete = true ∨
          lists (t.aclFor? s.model) roles .owner = true ∨
          rolesMatch members roles =
            lists (t.aclFor? s.model) roles .write) := by
  obtain ⟨part, hpart⟩ := ht.decided hclosed hapart
  have htable := hpart.tableOf?_column hc
  rw [hpart.decision_eq (hpart.holds_column hc),
    hpart.decision_eq hpart.holds_table]
  constructor
  · intro h
    refine decide_column_of_listed htable hbindings ?_
    by_cases hdelete : right = .delete
    · subst hdelete
      exact Column.listed_delete_of_none (h.resolve_left fun hne => hne rfl)
        roles
    · exact Column.listed_of_unsupported hright hdelete roles
  · rintro members rfl hwrite
    exact decide_delete_eq_table_iff htable hbindings hwrite

/-- Drafts that are deleted by their authors and have a body that everyone writes,
and issues that everyone deletes, with a number that no one writes. -/
def press : Model :=
  ((Model.fresh "sys").after changes).setAcls .catalog
    (.ofList [(.enumerate, ["*"])])
where
  drafts : TablePath := ⟨"press", "drafts"⟩
  issues : TablePath := ⟨"press", "issues"⟩
  changes : List Change :=
    [.ensureSchema "press",
      .addTable "press"
        { Table.fresh "press" "drafts" .table with
          bindings := .ofList [("own", .enabled
            ⟨[.select, .delete], some (.column "author"), .acl, none,
              Binding.everyone⟩)] },
      .addColumn drafts (.stored drafts "author" 0 .text none),
      .addColumn drafts { Column.stored drafts "body" 1 .text none with
        acls := .ofList [(.write, ["*"])] },
      .addTable "press"
        { Table.fresh "press" "issues" .table with
          acls := .ofList [(.write, ["*"])] },
      .addColumn issues { Column.stored issues "number" 0 .text none with
        acls := .ofList [(.write, [])] }]
  table (path : TablePath) : Table :=
    (((Model.fresh "sys").after changes).table? path).getD
      (.fresh path.schema path.table .table)
  column (path : TablePath) (name : String) : Column :=
    ((table path).column? name).getD (.stored path name 0 .text none)

theorem press_closed : press.Closed := by
  have hbuilt : ∀ c ∈ press.changes, c.WellBuilt := by
    simp [press.changes, press.drafts, press.issues, Change.WellBuilt,
      Table.fresh, Column.stored]
  have hclosed := Model.after_closed (Model.fresh_closed "sys") hbuilt
  exact hclosed.setAcls _ _

theorem press_hasTable :
    press.HasTable (press.table press.drafts) ∧
      press.HasTable (press.table press.issues) :=
  ⟨.visible (show press.table? press.drafts = _ from rfl),
    .visible (show press.table? press.issues = _ from rfl)⟩

theorem Snapshot.decision_unsupported_press :
    let s : Snapshot := ⟨1, press⟩
    let body := press.column press.drafts "body"
    let drafts := press.table press.drafts
    press.Closed ∧ press.schemas.get? press.systemSchema.name = none ∧
      press.HasTable drafts ∧ body ∈ drafts.columns ∧ body.bindings = ∅ ∧
      (∀ right, AclKind.column.supports right = false → right ≠ .delete →
        s.decision {} (.column body) right =
          s.decision {} (.table drafts) right) ∧
      body.acls.get? .write = some ["*"] ∧
      s.decision {} (.column body) .delete ≠
        s.decision {} (.table drafts) .delete := by
  intro s body drafts
  have hapart : press.schemas.get? press.systemSchema.name = none := rfl
  have hmem : body ∈ drafts.columns :=
    (Table.column?_eq_some (show drafts.column? "body" = some body from rfl)).1
  have hunsupported {right : Right}
      (hright : AclKind.column.supports right = false) :=
    s.decision_unsupported press_closed hapart press_hasTable.1 hmem rfl {}
      hright
  have hdelete : AclKind.column.supports .delete = false := rfl
  refine ⟨press_closed, hapart, press_hasTable.1, hmem, rfl, ?_, rfl, ?_⟩
  · exact fun right hright hne => (hunsupported hright).1 (.inl hne)
  · rw [Ne, (hunsupported hdelete).2 ["*"] rfl rfl]
    decide +kernel

/-- Deletion is decided otherwise on a column than on its table, in either
direction. -/
theorem Snapshot.press_splits_delete :
    let s : Snapshot := ⟨1, press⟩
    let issues := press.table press.issues
    let number := press.column press.issues "number"
    let drafts := press.table press.drafts
    let body := press.column press.drafts "body"
    press.Closed ∧ press.schemas.get? press.systemSchema.name = none ∧
      AclKind.column.supports .delete = false ∧
      (press.HasTable issues ∧ number ∈ issues.columns ∧ number.bindings = ∅ ∧
        s.decision {} (.table issues) .delete = .allow ∧
        s.decision {} (.column number) .delete = .deny) ∧
      (press.HasTable drafts ∧ body ∈ drafts.columns ∧ body.bindings = ∅ ∧
        s.decision {} (.table drafts) .delete = .indeterminate ∧
        s.decision {} (.column body) .delete = .allow) := by
  intro s issues number drafts body
  have hnumber : issues.column? "number" = some number := rfl
  have hbody : drafts.column? "body" = some body := rfl
  refine ⟨press_closed, rfl, rfl,
    ⟨press_hasTable.2, (Table.column?_eq_some hnumber).1, rfl, ?_, ?_⟩,
    ⟨press_hasTable.1, (Table.column?_eq_some hbody).1, rfl, ?_, ?_⟩⟩
  all_goals decide +kernel

end GovernedCatalog
