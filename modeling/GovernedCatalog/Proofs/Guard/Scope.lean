import GovernedCatalog.Proofs.Guard.Steps
import GovernedCatalog.Proofs.Model.History
import GovernedCatalog.Proofs.Sql.SelfDelimiting
import Mathlib.Data.List.Nodup

/-!
# The rows a condition speaks of

The condition of a path names the rows it joins, and around them stands the
governed row under the name that the caller gave.  SQL looks a name up from the
inside outwards.  So every field is one of the row for which it was compiled,
unless the caller's name for the governed row is that of a joined row.
-/

namespace GovernedCatalog

/-- Whether the step joins a table. -/
def PathElement.isTraversal : PathElement → Bool
  | follow .. => true
  | filter .. | column _ => false

namespace Guard

/-- Whether the row is the governed one or one of the first joined rows. -/
def RowName.Among (joined : Nat) : RowName → Prop
  | governed => True
  | .joined index => 1 ≤ index ∧ index ≤ joined

theorem RowName.Among.mono {joined more : Nat} (h : joined ≤ more)
    {row : RowName} (hrow : row.Among joined) : row.Among more := by
  cases row with
  | governed => trivial
  | joined index => exact ⟨hrow.1, Nat.le_trans hrow.2 h⟩

/-- The row of a name, with the governed row and the joined ones, in order. -/
def RowName.at? (governed : α) (joined : List α) : RowName → Option α
  | .governed => some governed
  | .joined 0 => none
  | .joined (index + 1) => joined[index]?

/-- More joined rows do not change what the names before them stand for. -/
theorem RowName.at?_append {governed : α} {joined more : List α} {row : RowName}
    (h : row.Among joined.length) :
    row.at? governed (joined ++ more) = row.at? governed joined := by
  cases row with
  | governed => rfl
  | joined index =>
      cases index with
      | zero => rfl
      | succ index => exact List.getElem?_append_left h.2

/-- The fields of which a condition speaks. -/
def Condition.fields : Condition → List Field
  | .join left right => [left, right]
  | .compare field .. | .isNull field | .isNotNull field | .fits field ..
  | .isRole field _ | .hasRole field _ => [field]

def Condition.Among (joined : Nat) (c : Condition) : Prop :=
  ∀ f ∈ c.fields, f.row.Among joined

namespace PathCondition

variable (p : PathCondition)

/-- The names of the joined rows in SQL. -/
def aliases : List String :=
  (List.range' 1 p.joined.length).map fun index => (RowName.joined index).sql ""

/-- The rows of which the condition may speak, from the inside outwards. -/
def rows : List RowName :=
  (List.range' 1 p.joined.length).map .joined ++ [.governed]

/-- What a name stands for: something of the joined rows, or of the governed row
around them. -/
def scope (outer : String) (values : List α) (name : String) : Option α :=
  ((p.aliases ++ [outer]).zip values).lookup name

end PathCondition

/-! ## Names of rows -/

theorem joined_sql_inj {index index' : Nat} {outer outer' : String} :
    (RowName.joined index).sql outer = (RowName.joined index').sql outer' ↔
      index = index' := by
  constructor
  · intro h
    simp only [RowName.sql, Sql.identifier_inj, String.append_right_inj,
      Nat.toString_eq_ofList_toDigits, String.ofList_inj] at h
    rw [← Nat.ofDigitChars_ten_toDigits (n := index), h,
      Nat.ofDigitChars_ten_toDigits]
  · rintro rfl
    rfl

theorem rowReference_eq_joined_iff {t : Table} {alias? : Option String}
    {index : Nat} {outer : String} :
    rowReference t alias? = (RowName.joined index).sql outer ↔
      alias? = some ("_dyn" ++ toString index) := by
  have hpath : t.path.sql ≠ Sql.identifier ("_dyn" ++ toString index) :=
    Sql.qualified_ne_identifier _ _ _
  cases alias? with
  | none => simpa [rowReference, RowName.sql] using hpath
  | some name =>
      rw [Option.some.injEq]
      by_cases hempty : name = ""
      · have hne : "" ≠ "_dyn" ++ toString index := by
          intro h
          simpa using congrArg String.toList h
        subst hempty
        exact iff_of_false hpath hne
      · simp [rowReference, hempty, RowName.sql, Sql.identifier_inj]

namespace PathCondition

variable {p : PathCondition} {outer : String}

theorem length_aliases : p.aliases.length = p.joined.length := by
  simp [aliases]

theorem nodup_aliases : p.aliases.Nodup :=
  List.Nodup.map (fun _ _ h => joined_sql_inj.1 h) (List.nodup_range' 1)

theorem mem_aliases {name : String} :
    name ∈ p.aliases ↔
      ∃ index, 1 ≤ index ∧ index ≤ p.joined.length ∧
        (RowName.joined index).sql "" = name := by
  simp only [aliases, List.mem_map, List.mem_range'_1]
  apply exists_congr
  intro index
  rw [and_assoc]
  apply and_congr_right
  intro _
  apply and_congr_left
  intro _
  omega

theorem mem_rows {row : RowName} : row ∈ p.rows ↔ row.Among p.joined.length := by
  cases row with
  | governed => simp [rows, RowName.Among]
  | joined index =>
      simp [rows, RowName.Among, List.mem_range'_1]
      omega

theorem sources_eq (first : Nat) (tables : List TablePath) :
    sources first tables =
      List.zipWith (fun table name => table.sql ++ " AS " ++ name) tables
        ((List.range' first tables.length).map fun index =>
          (RowName.joined index).sql "") := by
  induction tables generalizing first with
  | nil => rfl
  | cons table rest ih => simp [sources, ih, List.range'_succ]

/-! ## What names stand for -/

theorem lookup_joined (outer : String) (first index : Nat) (values : List α) :
    (((List.range' first values.length).map fun index =>
      (RowName.joined index).sql "").zip values).lookup
        ((RowName.joined (first + index)).sql outer) = values[index]? := by
  induction values generalizing first index with
  | nil => simp
  | cons value rest ih =>
      rw [List.length_cons, List.range'_succ, List.map_cons, List.zip_cons_cons,
        List.lookup_cons]
      cases index with
      | zero =>
          have hsame : (RowName.joined (first + 0)).sql outer =
              (RowName.joined first).sql "" := joined_sql_inj.2 rfl
          rw [hsame]
          simp
      | succ index =>
          have hother : (RowName.joined (first + (index + 1))).sql outer ≠
              (RowName.joined first).sql "" := by
            rw [Ne, joined_sql_inj]
            omega
          have hnext := ih (first + 1) index
          rw [Nat.add_right_comm, Nat.add_assoc] at hnext
          rw [beq_false_of_ne hother]
          simpa using hnext

theorem scope_eq {governed : α} {values : List α}
    (hlength : values.length = p.joined.length) (name : String) :
    p.scope outer (values ++ [governed]) name =
      ((p.aliases.zip values).lookup name).or
        (if name == outer then some governed else none) := by
  have hzip : (p.aliases ++ [outer]).zip (values ++ [governed]) =
      p.aliases.zip values ++ [(outer, governed)] := by
    apply List.zip_append
    rw [length_aliases, hlength]
  rw [scope, hzip, List.lookup_append, List.lookup_cons, List.lookup_nil]
  cases name == outer <;> rfl

theorem lookup_aliases_joined {values : List α}
    (hlength : values.length = p.joined.length) (index : Nat) :
    (p.aliases.zip values).lookup ((RowName.joined (index + 1)).sql outer) =
      values[index]? := by
  have hlookup := lookup_joined outer 1 index values
  rw [hlength, Nat.add_comm 1 index] at hlookup
  exact hlookup

/-- A joined row is found under its name, whatever the governed row is
called. -/
theorem scope_joined {governed : α} {values : List α}
    (hlength : values.length = p.joined.length) (outer' : String) {index : Nat}
    (hindex : index < p.joined.length) :
    p.scope outer (values ++ [governed])
      ((RowName.joined (index + 1)).sql outer') = values[index]? := by
  rw [scope_eq hlength, lookup_aliases_joined hlength,
    List.getElem?_eq_getElem (hlength ▸ hindex)]
  rfl

theorem scope_rows_joined (outer' : String) {index : Nat}
    (hindex : index < p.joined.length) :
    p.scope outer p.rows ((RowName.joined (index + 1)).sql outer') =
      some (.joined (index + 1)) := by
  rw [rows, scope_joined (by simp) outer' hindex, List.getElem?_map,
    List.getElem?_range' hindex]
  simp [Nat.add_comm]

/-- The governed row is found under its name unless a joined row has it. -/
theorem scope_governed (houter : outer ∉ p.aliases) {governed : α}
    {values : List α} (hlength : values.length = p.joined.length) :
    p.scope outer (values ++ [governed]) outer = some governed := by
  have hnone : (p.aliases.zip values).lookup outer = none := by
    rw [List.lookup_eq_none_iff]
    intro entry hentry
    have hmem := (List.of_mem_zip hentry).1
    apply bne_iff_ne.2
    rintro rfl
    exact houter hmem
  simp [scope_eq hlength, hnone]

/-- Where no joined row has the name of the governed row, all rows are found
under their names. -/
theorem scope_sql (houter : outer ∉ p.aliases) {governed : α} {values : List α}
    (hlength : values.length = p.joined.length) {row : RowName}
    (hrow : row.Among p.joined.length) :
    p.scope outer (values ++ [governed]) (row.sql outer) =
      row.at? governed values := by
  cases row with
  | governed => exact scope_governed houter hlength
  | joined index =>
      cases index with
      | zero => exact absurd hrow.1 (by omega)
      | succ index => exact scope_joined hlength outer hrow.2

end PathCondition

/-! ## Conditions along a path -/

/-- The walk stands at one of its rows, and its conditions speak of them only. -/
structure Walk.Scoped (w : Walk) : Prop where
  row : w.row.Among w.joined.length
  conditions : ∀ c ∈ w.conditions, c.Among w.joined.length

theorem Condition.Among.mono {joined more : Nat} (h : joined ≤ more)
    {c : Condition} (hc : c.Among joined) : c.Among more :=
  fun f hf => (hc f hf).mono h

theorem FilterCondition.fields_eq {field : Field} {type : ColumnType}
    {operand : Json} {operator : String} {c : Condition}
    (h : FilterCondition field type operand operator c) : c.fields = [field] := by
  cases h <;> rfl

theorem projectedCondition_fields (type : ProjectionType) (field : Field)
    (column : Column) (roles : Roles) :
    (projectedCondition type field column roles).fields = [field] := by
  cases type with
  | nonnull => rfl
  | acl =>
      unfold projectedCondition
      cases column.type.isArray <;> rfl

theorem joinConditions_among {direction : Direction} {r : Reference}
    {row next : RowName} {joined : Nat} (hrow : row.Among joined)
    (hnext : next.Among joined) {c : Condition}
    (hc : c ∈ joinConditions direction r row next) : c.Among joined := by
  obtain ⟨⟨source, target⟩, -, rfl⟩ := List.mem_map.1 hc
  intro f hf
  cases direction <;> simp [Condition.fields] at hf
  all_goals
    rcases hf with rfl | rfl
    · exact hrow
    · exact hnext

namespace Walk

variable {m : Model} {w w' : Walk}

theorem start_scoped (t : Table) : (start t).Scoped :=
  ⟨trivial, by simp [start]⟩

theorem Step.scoped {element : PathElement} (h : Step m w element w')
    (hw : w.Scoped) : w'.Scoped := by
  cases h with
  | @follow direction constraint r next hr hnext =>
      have hrow : (RowName.joined (w.joined.length + 1)).Among
          (w.joined.length + 1) := ⟨by omega, by omega⟩
      have hlength : (w.moved direction r next).joined.length =
          w.joined.length + 1 := List.length_append
      constructor
      · rw [hlength]
        exact hrow
      · intro c hc
        rw [hlength]
        rcases List.mem_append.1 hc with hc | hc
        · exact (hw.conditions c hc).mono (by omega)
        · exact joinConditions_among (hw.row.mono (by omega)) hrow hc
  | @filter name operand operator column condition hcolumn hcondition =>
      constructor
      · exact hw.row
      · intro c hc
        rcases List.mem_append.1 hc with hc | hc
        · exact hw.conditions c hc
        · intro f hf
          rw [List.mem_singleton.1 hc, hcondition.fields_eq] at hf
          rw [List.mem_singleton.1 hf]
          exact hw.row

theorem Step.length_joined {element : PathElement} (h : Step m w element w') :
    w'.joined.length =
      w.joined.length + [element].countP PathElement.isTraversal := by
  cases h with
  | follow hr hnext => exact List.length_append
  | filter hc hcondition => rfl

theorem run_scoped (hw : w.Scoped) {steps : List PathElement}
    (h : w.run m steps = .ok w') :
    w'.Scoped ∧ w'.joined.length =
      w.joined.length + steps.countP PathElement.isTraversal := by
  induction steps generalizing w with
  | nil =>
      cases h
      exact ⟨hw, rfl⟩
  | cons element rest ih =>
      obtain ⟨next, hstep, hrest⟩ := run_cons_eq_ok.1 h
      obtain ⟨hscoped, hlength⟩ := ih (hstep.scoped hw) hrest
      refine ⟨hscoped, ?_⟩
      rw [hlength, hstep.length_joined, Nat.add_assoc, ← List.countP_append]
      rfl

theorem finish_among (hw : w.Scoped) (type : ProjectionType) (column : Column)
    (roles : Roles) :
    ∀ c ∈ (w.finish (projectedCondition type ⟨w.row, column.name⟩ column
      roles)).conditions, c.Among w.joined.length := by
  intro c hc
  rcases List.mem_append.1 hc with hc | hc
  · exact hw.conditions c hc
  · intro f hf
    rw [List.mem_singleton.1 hc, projectedCondition_fields] at hf
    rw [List.mem_singleton.1 hf]
    exact hw.row

end Walk

/-- The rows of a condition and their names, where the governed row has a name
of the caller's choice. -/
structure PathCondition.Named (p : PathCondition) (t : Table)
    (alias? : Option String) : Prop where
  sources : PathCondition.sources 1 p.joined =
    List.zipWith (fun table name => table.sql ++ " AS " ++ name) p.joined
      p.aliases
  aliases_nodup : p.aliases.Nodup
  /-- Only one of the aliases `_dyn1`, `_dyn2` and so on is a name of a joined
  row too. -/
  captured : rowReference t alias? ∈ p.aliases ↔
    ∃ index, 1 ≤ index ∧ index ≤ p.joined.length ∧
      alias? = some ("_dyn" ++ toString index)
  fields : ∀ c ∈ p.conditions, ∀ f ∈ c.fields, f.row ∈ p.rows
  joined_found : ∀ index, 1 ≤ index → index ≤ p.joined.length →
    p.scope (rowReference t alias?) p.rows
      ((RowName.joined index).sql (rowReference t alias?)) =
        some (.joined index)
  governed_found : p.scope (rowReference t alias?) p.rows
      (RowName.governed.sql (rowReference t alias?)) = some .governed ↔
    rowReference t alias? ∉ p.aliases

theorem PathCondition.named {p : PathCondition} (t : Table)
    (alias? : Option String)
    (hfields : ∀ c ∈ p.conditions, c.Among p.joined.length) :
    p.Named t alias? where
  sources := sources_eq 1 p.joined
  aliases_nodup := nodup_aliases
  captured := by
    rw [mem_aliases]
    apply exists_congr
    intro index
    rw [eq_comm, rowReference_eq_joined_iff]
  fields c hc f hf := mem_rows.2 (hfields c hc f hf)
  joined_found index hfirst hlast := by
    obtain ⟨index, rfl⟩ := Nat.exists_eq_add_of_le' hfirst
    exact scope_rows_joined _ hlast
  governed_found := by
    constructor
    · intro hfound hmem
      obtain ⟨index, hfirst, hlast, hname⟩ := mem_aliases.1 hmem
      obtain ⟨index, rfl⟩ := Nat.exists_eq_add_of_le' hfirst
      have hjoined : p.scope (rowReference t alias?) p.rows
          (rowReference t alias?) = some (.joined (index + 1)) := by
        rw [← hname]
        exact scope_rows_joined "" hlast
      cases hfound.symm.trans hjoined
    · intro hfree
      exact scope_governed hfree (by simp)

/-- The names of rows in the condition of a projection are those of the rows
for which it was compiled, unless the alias of the governed row is also the name
of a joined one. -/
theorem compileBinding_named {m : Model} {roles : Roles} {t : Table}
    {alias? : Option String} {b : Binding} {projection : Projection}
    {sql : String} (hclause : b.clause = none)
    (hprojection : b.projection = some projection)
    (h : compileBinding m roles t alias? b = .ok sql) :
    ∃ steps name p, projection.split = .ok (steps, name) ∧
      pathCondition m roles t projection b.projectionType = .ok p ∧
      p.sql (rowReference t alias?) = sql ∧
      p.joined.length = steps.countP PathElement.isTraversal ∧
      p.Named t alias? := by
  obtain ⟨p, hp, hsql⟩ := (compileBinding_projection hclause hprojection).1 h
  obtain ⟨steps, name, w, c, hsplit, hrun, -, rfl⟩ := pathCondition_eq_ok.1 hp
  obtain ⟨hscoped, hlength⟩ := Walk.run_scoped (Walk.start_scoped t) hrun
  refine ⟨steps, name, _, hsplit, hp, hsql, ?_, ?_⟩
  · rw [← Nat.zero_add (steps.countP _)]
    exact hlength
  · exact PathCondition.named t alias? (Walk.finish_among hscoped _ _ _)

/-- Documents of projects, which are parts of other projects and have members. -/
def workplace : Model :=
  (Model.fresh "sys").after
    [.ensureSchema "work",
      .addTable "work" (.fresh "work" "projects" .table),
      .addColumn projects (.stored projects "id" 0 .text none),
      .addColumn projects (.stored projects "parent" 1 .text none),
      .addKey projects (.ofList ["id"]) none,
      .addReference projects
        ⟨projects, .ofList [("parent", "id")], by decide⟩
        (some ⟨"work", "projects_parent"⟩) .noAction .noAction,
      .addTable "work" (.fresh "work" "documents" .table),
      .addColumn documents (.stored documents "project" 0 .text none),
      .addColumn documents (.stored documents "state" 1 .text none),
      .addReference documents
        ⟨projects, .ofList [("project", "id")], by decide⟩
        (some ⟨"work", "documents_project"⟩) .noAction .noAction,
      .addTable "work" (.fresh "work" "members" .table),
      .addColumn members (.stored members "project" 0 .text none),
      .addColumn members (.stored members "person" 1 .text none),
      .addReference members
        ⟨projects, .ofList [("project", "id")], by decide⟩
        (some ⟨"work", "members_project"⟩) .noAction .noAction]
where
  projects : TablePath := ⟨"work", "projects"⟩
  documents : TablePath := ⟨"work", "documents"⟩
  members : TablePath := ⟨"work", "members"⟩

/-- Drafts are for the members of the project above the one of the document. -/
def workplace.path : Projection :=
  .path
    [.filter "state" (.str "draft") none,
      .follow .outbound ⟨"work", "documents_project"⟩,
      .follow .outbound ⟨"work", "projects_parent"⟩,
      .follow .inbound ⟨"work", "members_project"⟩,
      .column "person"]

def workplace.binding : Binding :=
  ⟨[.select], some workplace.path, .acl, none, Binding.everyone⟩

/-- The condition for the rows of the documents. -/
def workplace.condition? : Option (Table × PathCondition) := do
  let t ← workplace.tableOf? workplace.documents
  let p ← (pathCondition workplace (.ofList ["ann"]) t workplace.path .acl).toOption
  return (t, p)

theorem workplace_condition :
    workplace.condition?.map (fun (_, p) => p.joined.length) = some 3 := by
  decide +kernel

theorem workplace_compiles (alias? : Option String) :
    ∃ t p, pathCondition workplace (.ofList ["ann"]) t workplace.path .acl =
        .ok p ∧
      p.joined.length = 3 ∧
      workplace.tableOf? workplace.documents = some t ∧
      compileBinding workplace (.ofList ["ann"]) t alias? workplace.binding =
        .ok (p.sql (rowReference t alias?)) := by
  obtain ⟨⟨t, p⟩, hp, hlength⟩ := Option.map_eq_some_iff.1 workplace_condition
  simp only [workplace.condition?, Option.bind_eq_bind, Option.bind_eq_some_iff,
    toOption_eq_some_iff, Option.pure_def, Option.some.injEq,
    Prod.mk.injEq] at hp
  obtain ⟨_, ht, _, hp, rfl, rfl⟩ := hp
  exact ⟨_, _, hp, hlength, ht,
    (compileBinding_projection rfl rfl).2 ⟨_, hp, rfl⟩⟩

theorem compileBinding_named_workplace :
    ∃ t sql, workplace.tableOf? workplace.documents = some t ∧
      compileBinding workplace (.ofList ["ann"]) t (some "d")
        workplace.binding = .ok sql ∧
      ∃ steps name p, workplace.path.split = .ok (steps, name) ∧
        pathCondition workplace (.ofList ["ann"]) t workplace.path .acl =
          .ok p ∧
        p.sql (rowReference t (some "d")) = sql ∧
        p.joined.length = steps.countP PathElement.isTraversal ∧
        p.Named t (some "d") := by
  obtain ⟨t, p, _, _, ht, hsql⟩ := workplace_compiles (some "d")
  exact ⟨t, _, ht, hsql, compileBinding_named rfl rfl hsql⟩

/-- Under the alias `_dyn1` the documents have the name of the first joined row,
and the condition speaks of that row in their place. -/
theorem workplace_captured :
    ∃ t sql p, workplace.tableOf? workplace.documents = some t ∧
      compileBinding workplace (.ofList ["ann"]) t (some "_dyn1")
        workplace.binding = .ok sql ∧
      p.sql (rowReference t (some "_dyn1")) = sql ∧
      pathCondition workplace (.ofList ["ann"]) t workplace.path .acl =
        .ok p ∧
      rowReference t (some "_dyn1") ∈ p.aliases ∧
      p.scope (rowReference t (some "_dyn1")) p.rows
        (RowName.governed.sql (rowReference t (some "_dyn1"))) =
          some (.joined 1) := by
  obtain ⟨t, p, hp, hlength, ht, hsql⟩ := workplace_compiles (some "_dyn1")
  have hname : (RowName.joined 1).sql "" = rowReference t (some "_dyn1") :=
    (rowReference_eq_joined_iff.2 (by decide)).symm
  refine ⟨t, _, p, ht, hsql, rfl, hp, ?_, ?_⟩
  · apply PathCondition.mem_aliases.2
    exact ⟨1, by omega, by omega, hname⟩
  · rw [RowName.sql, ← hname]
    exact PathCondition.scope_rows_joined "" (by omega)

end Guard

end GovernedCatalog
