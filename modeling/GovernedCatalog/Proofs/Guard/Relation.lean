import Mathlib.Data.List.Forall2
import GovernedCatalog.Proofs.Guard.Scope

/-!
# Paths as relations between rows

A path leads from a row of the governed table over rows of other tables: every
traversal goes on to a row that its reference relates to the one before, and the
filters in between hold on the rows where they stand.  The condition of a
projection holds on a row if and only if its path leads from there to a row with
the projected value.
-/

namespace GovernedCatalog.Guard

universe u

/-- A row has a value or null in each column. -/
abbrev Row (V : Type u) := String → Option V

abbrev Database (V : Type u) := TablePath → List (Row V)

/-- How a database reads constants and roles, and when its operators are true of
values that are not null. -/
structure Engine (V : Type u) where
  constant : String → Option V
  role : String → V
  compares : Comparison → V → V → Prop
  fits : Bool → String → V → Prop
  elements : V → List V

variable {V : Type u} (e : Engine V) (db : Database V)

namespace Engine

/-- No comparison is true of null. -/
def Compares (comparison : Comparison) (x y : Option V) : Prop :=
  ∃ v ∈ x, ∃ w ∈ y, e.compares comparison v w

def Fits (caseSensitive : Bool) (pattern : String) (x : Option V) : Prop :=
  ∃ v ∈ x, e.fits caseSensitive pattern v

def IsRole (roles : Roles) (x : Option V) : Prop :=
  ∃ role ∈ roles.elems, e.Compares .equal x (some (e.role role))

def HasRole (roles : Roles) (x : Option V) : Prop :=
  ∃ v ∈ x, ∃ item ∈ e.elements v, e.IsRole roles (some item)

end Engine

/-! ## What paths mean -/

/-- Whether a filter of a column with the type admits a value. -/
inductive Engine.Admits (type : ColumnType) (value : Option V) (operand : Json)
    (operator : String) : Prop
  | null (hoperator : operator = "::null::") (hvalue : value = none)
  | regexp {pattern : String} (hoperator : operator = "::regexp::")
      (hoperand : operand = .str pattern) (hfits : e.Fits true pattern value)
  | ciregexp {pattern : String} (hoperator : operator = "::ciregexp::")
      (hoperand : operand = .str pattern) (hfits : e.Fits false pattern value)
  | compares {comparison : Comparison} {constant : String}
      (hcomparison : Comparison.ofOperator? operator = some comparison)
      (hconstant : type.literal operand = .ok constant)
      (hcompares : e.Compares comparison value (e.constant constant))

/-- Whether a reference, followed in a direction, relates a row to the next. -/
def Engine.Relates (direction : Direction) (r : Reference) (row next : Row V) :
    Prop :=
  ∀ pair ∈ r.mapping.pairs.entries,
    match direction with
    | .outbound => e.Compares .equal (row pair.1) (next pair.2)
    | .inbound => e.Compares .equal (row pair.2) (next pair.1)

/-- Whether a projected value authorises the roles. -/
def Engine.Authorises (roles : Roles) (c : Column) (value : Option V) :
    ProjectionType → Prop
  | .nonnull => value ≠ none
  | .acl =>
      if c.type.isArray then e.HasRole roles value else e.IsRole roles value

/-- Whether steps lead from a row of a table over some rows to another one. -/
inductive Along (m : Model) : Table → Row V → List PathElement → List (Row V) →
    Table → Row V → Prop
  | here {t : Table} {row : Row V} : Along m t row [] [] t row
  | filter {t t' : Table} {row row' : Row V} {name : String} {operand : Json}
      {operator : Option String} {c : Column} {rest : List PathElement}
      {rows : List (Row V)} (hc : t.column? name = some c)
      (hadmits : e.Admits c.type (row c.name) operand (operator.getD "="))
      (hrest : Along m t row rest rows t' row') :
      Along m t row (.filter name operand operator :: rest) rows t' row'
  | follow {t next t' : Table} {row row' nextRow : Row V} {direction : Direction}
      {constraint : ConstraintName} {r : Reference} {rest : List PathElement}
      {rows : List (Row V)}
      (hr : m.followed? t direction constraint = some r)
      (hnext : m.tableOf? (r.far direction) = some next)
      (hrow : nextRow ∈ db next.path)
      (hrelates : e.Relates direction r row nextRow)
      (hrest : Along m next nextRow rest rows t' row') :
      Along m t row (.follow direction constraint :: rest) (nextRow :: rows) t'
        row'

/-! ## What conditions mean -/

/-- The value of a field where names of rows have a meaning. -/
def Field.Reads (row? : RowName → Option (Row V)) (f : Field)
    (value : Option V) : Prop :=
  ∃ row, row? f.row = some row ∧ row f.column = value

def Condition.Holds (row? : RowName → Option (Row V)) : Condition → Prop
  | .join left right =>
      ∃ x y, left.Reads row? x ∧ right.Reads row? y ∧ e.Compares .equal x y
  | .compare field comparison constant =>
      ∃ x, field.Reads row? x ∧ e.Compares comparison x (e.constant constant)
  | .isNull field => field.Reads row? none
  | .isNotNull field => ∃ x, field.Reads row? x ∧ x ≠ none
  | .fits field caseSensitive pattern =>
      ∃ x, field.Reads row? x ∧ e.Fits caseSensitive pattern x
  | .isRole field roles => ∃ x, field.Reads row? x ∧ e.IsRole roles x
  | .hasRole field roles => ∃ x, field.Reads row? x ∧ e.HasRole roles x

/-- The condition holds on a row if the joined tables have rows with which all
its parts hold, where rows are found by their names in SQL. -/
def PathCondition.Holds (p : PathCondition) (outer : String) (row : Row V) :
    Prop :=
  ∃ rows, List.Forall₂ (fun row table => row ∈ db table) rows p.joined ∧
    ∀ c ∈ p.conditions, c.Holds e fun name =>
      p.scope outer (rows ++ [row]) (name.sql outer)

/-- Whether the rows that a walk has joined are as it requires. -/
def Walk.Holds (w : Walk) (governed : Row V) (rows : List (Row V)) : Prop :=
  List.Forall₂ (fun row table => row ∈ db table) rows w.joined ∧
    ∀ c ∈ w.conditions, c.Holds e fun name => name.at? governed rows

/-! ## Steps -/

variable {e db}

theorem Field.reads_iff {row? : RowName → Option (Row V)} {f : Field}
    {row : Row V} (hrow : row? f.row = some row) {value : Option V} :
    f.Reads row? value ↔ row f.column = value := by
  simp [Reads, hrow]

theorem Field.reads_congr {row? row?' : RowName → Option (Row V)} {f : Field}
    (h : row? f.row = row?' f.row) (value : Option V) :
    f.Reads row? value ↔ f.Reads row?' value := by
  simp [Reads, h]

/-- A condition depends on the rows of its fields only. -/
theorem Condition.holds_congr {row? row?' : RowName → Option (Row V)}
    {c : Condition} (h : ∀ f ∈ c.fields, row? f.row = row?' f.row) :
    c.Holds e row? ↔ c.Holds e row?' := by
  cases c with
  | join left right =>
      have hleft := Field.reads_congr (h left (by simp [fields]))
      have hright := Field.reads_congr (h right (by simp [fields]))
      simp only [Holds, hleft, hright]
  | compare field comparison constant =>
      simp only [Holds, Field.reads_congr (h field (by simp [fields]))]
  | isNull field =>
      simp only [Holds, Field.reads_congr (h field (by simp [fields]))]
  | isNotNull field =>
      simp only [Holds, Field.reads_congr (h field (by simp [fields]))]
  | fits field caseSensitive pattern =>
      simp only [Holds, Field.reads_congr (h field (by simp [fields]))]
  | isRole field roles =>
      simp only [Holds, Field.reads_congr (h field (by simp [fields]))]
  | hasRole field roles =>
      simp only [Holds, Field.reads_congr (h field (by simp [fields]))]

/-- More joined rows do not change a condition on those before them. -/
theorem Condition.holds_append {governed : Row V} {rows more : List (Row V)}
    {c : Condition} (hc : c.Among rows.length) :
    (c.Holds e fun name => name.at? governed (rows ++ more)) ↔
      c.Holds e fun name => name.at? governed rows :=
  holds_congr fun f hf => RowName.at?_append (hc f hf)

/-- The operators of the other filters name no comparison. -/
theorem ofOperator?_ne {operator : String} {comparison : Comparison}
    (h : Comparison.ofOperator? operator = some comparison) :
    operator ≠ "::null::" ∧ operator ≠ "::regexp::" ∧
      operator ≠ "::ciregexp::" := by
  unfold Comparison.ofOperator? at h
  split at h <;> first | decide | cases h

theorem FilterCondition.holds_iff {row? : RowName → Option (Row V)}
    {field : Field} {type : ColumnType} {operand : Json} {operator : String}
    {c : Condition} (h : FilterCondition field type operand operator c)
    {row : Row V} (hrow : row? field.row = some row) :
    c.Holds e row? ↔ e.Admits type (row field.column) operand operator := by
  cases h with
  | null =>
      simp only [Condition.Holds, Field.reads_iff hrow]
      constructor
      · exact .null rfl
      · intro h
        cases h with
        | null _ hvalue => exact hvalue
        | regexp hoperator => exact absurd hoperator (by decide)
        | ciregexp hoperator => exact absurd hoperator (by decide)
        | compares hcomparison => exact absurd rfl (ofOperator?_ne hcomparison).1
  | regexp =>
      simp only [Condition.Holds, Field.reads_iff hrow, exists_eq_left']
      constructor
      · exact .regexp rfl rfl
      · intro h
        cases h with
        | null hoperator => exact absurd hoperator (by decide)
        | regexp _ hoperand hfits =>
            cases hoperand
            exact hfits
        | ciregexp hoperator => exact absurd hoperator (by decide)
        | compares hcomparison =>
            exact absurd rfl (ofOperator?_ne hcomparison).2.1
  | ciregexp =>
      simp only [Condition.Holds, Field.reads_iff hrow, exists_eq_left']
      constructor
      · exact .ciregexp rfl rfl
      · intro h
        cases h with
        | null hoperator => exact absurd hoperator (by decide)
        | regexp hoperator => exact absurd hoperator (by decide)
        | ciregexp _ hoperand hfits =>
            cases hoperand
            exact hfits
        | compares hcomparison =>
            exact absurd rfl (ofOperator?_ne hcomparison).2.2
  | compare hcomparison hconstant =>
      obtain ⟨hnull, hregexp, hciregexp⟩ := ofOperator?_ne hcomparison
      simp only [Condition.Holds, Field.reads_iff hrow, exists_eq_left']
      constructor
      · exact .compares hcomparison hconstant
      · intro h
        cases h with
        | null hoperator => exact absurd hoperator hnull
        | regexp hoperator => exact absurd hoperator hregexp
        | ciregexp hoperator => exact absurd hoperator hciregexp
        | compares hcomparison' hconstant' hcompares =>
            cases hcomparison.symm.trans hcomparison'
            cases hconstant.symm.trans hconstant'
            exact hcompares

theorem projectedCondition_holds_iff {row? : RowName → Option (Row V)}
    (type : ProjectionType) {field : Field} (c : Column) (roles : Roles)
    {row : Row V} (hrow : row? field.row = some row) :
    (projectedCondition type field c roles).Holds e row? ↔
      e.Authorises roles c (row field.column) type := by
  cases type with
  | nonnull => simp [projectedCondition, Condition.Holds, Engine.Authorises,
      Field.reads_iff hrow]
  | acl =>
      unfold projectedCondition Engine.Authorises
      cases c.type.isArray <;>
        simp [Condition.Holds, Field.reads_iff hrow]

theorem joinConditions_hold_iff {row? : RowName → Option (Row V)}
    (direction : Direction) (r : Reference) {name nextName : RowName}
    {row next : Row V} (hrow : row? name = some row)
    (hnext : row? nextName = some next) :
    (∀ c ∈ joinConditions direction r name nextName, c.Holds e row?) ↔
      e.Relates direction r row next := by
  simp only [joinConditions, List.forall_mem_map]
  apply forall₂_congr
  intro pair _
  cases direction with
  | outbound =>
      simp [Condition.Holds, Field.Reads, hrow, hnext]
  | inbound =>
      simp [Condition.Holds, Field.Reads, hrow, hnext]

theorem forall₂_concat {α β : Type*} {R : α → β → Prop} {as : List α}
    {bs : List β} (h : as.length = bs.length) (a : α) (b : β) :
    List.Forall₂ R (as ++ [a]) (bs ++ [b]) ↔ List.Forall₂ R as bs ∧ R a b := by
  induction as generalizing bs with
  | nil =>
      cases bs with
      | nil => simp
      | cons b' bs => cases h
  | cons a' as ih =>
      cases bs with
      | nil => cases h
      | cons b' bs =>
          simp only [List.cons_append, List.forall₂_cons]
          rw [ih (Nat.succ.inj h), and_assoc]

namespace Walk

variable {m : Model} {w w' : Walk} {governed row : Row V} {rows : List (Row V)}

theorem narrowed_holds_iff {field : Field} {type : ColumnType} {operand : Json}
    {operator : String} {c : Condition}
    (hc : FilterCondition field type operand operator c)
    (hrow : field.row.at? governed rows = some row) :
    (w.narrowed c).Holds e db governed rows ↔
      w.Holds e db governed rows ∧
        e.Admits type (row field.column) operand operator := by
  have hholds : (c.Holds e fun name => name.at? governed rows) ↔
      e.Admits type (row field.column) operand operator := hc.holds_iff hrow
  simp only [Holds, narrowed, List.forall_mem_append, List.forall_mem_singleton,
    hholds, and_assoc]

theorem moved_holds_iff (hw : w.Scoped) (hlength : rows.length = w.joined.length)
    (hrow : w.row.at? governed rows = some row) (direction : Direction)
    (r : Reference) (next : Table) (nextRow : Row V) :
    (w.moved direction r next).Holds e db governed (rows ++ [nextRow]) ↔
      w.Holds e db governed rows ∧ nextRow ∈ db next.path ∧
        e.Relates direction r row nextRow := by
  have hhere : w.row.at? governed (rows ++ [nextRow]) = some row := by
    rw [RowName.at?_append (hlength ▸ hw.row)]
    exact hrow
  have hthere : (RowName.joined (w.joined.length + 1)).at? governed
      (rows ++ [nextRow]) = some nextRow := by
    rw [← hlength]
    exact List.getElem?_concat_length
  have hbefore : (∀ c ∈ w.conditions, c.Holds e fun name =>
      name.at? governed (rows ++ [nextRow])) ↔
        ∀ c ∈ w.conditions, c.Holds e fun name => name.at? governed rows := by
    apply forall₂_congr
    intro c hc
    exact Condition.holds_append (hlength ▸ hw.conditions c hc)
  have hjoins : (∀ c ∈ joinConditions direction r w.row
      (.joined (w.joined.length + 1)), c.Holds e fun name =>
        name.at? governed (rows ++ [nextRow])) ↔
          e.Relates direction r row nextRow :=
    joinConditions_hold_iff direction r hhere hthere
  simp only [Holds, moved, forall₂_concat hlength, List.forall_mem_append,
    hbefore, hjoins]
  tauto

theorem Holds.length_eq (h : w.Holds e db governed rows) :
    rows.length = w.joined.length := h.1.length_eq

theorem moved_length (direction : Direction) (r : Reference) (next : Table) :
    (w.moved direction r next).joined.length = w.joined.length + 1 :=
  List.length_append

theorem moved_row (hlength : rows.length = w.joined.length)
    (direction : Direction) (r : Reference) (next : Table) (nextRow : Row V) :
    (w.moved direction r next).row.at? governed (rows ++ [nextRow]) =
      some nextRow := by
  simp [moved, RowName.at?, ← hlength]

/-- From rows as the walk requires, its remaining steps succeed on some more rows
if and only if they lead over these from the row where it stands. -/
theorem run_holds_iff {steps : List PathElement} (h : w.run m steps = .ok w')
    (hw : w.Scoped) (hlength : rows.length = w.joined.length)
    (hrow : w.row.at? governed rows = some row) (more : List (Row V)) :
    w'.Holds e db governed (rows ++ more) ↔
      w.Holds e db governed rows ∧
        ∃ last, Along e db m w.table row steps more w'.table last := by
  induction steps generalizing w rows row more with
  | nil =>
      cases h
      constructor
      · intro hholds
        have hmore : more = [] := by
          have hall := hholds.length_eq
          rw [List.length_append] at hall
          apply List.length_eq_zero_iff.1
          omega
        subst hmore
        rw [List.append_nil] at hholds
        exact ⟨hholds, row, .here⟩
      · rintro ⟨hholds, last, halong⟩
        cases halong
        rw [List.append_nil]
        exact hholds
  | cons element rest ih =>
      obtain ⟨next, hstep, hrest⟩ := run_cons_eq_ok.1 h
      have hnext := hstep.scoped hw
      cases hstep with
      | filter hc hcondition =>
          rw [ih hrest hnext hlength hrow more,
            narrowed_holds_iff hcondition hrow, and_assoc]
          apply and_congr_right
          intro _
          constructor
          · rintro ⟨hadmits, last, halong⟩
            exact ⟨last, .filter hc hadmits halong⟩
          · rintro ⟨last, halong⟩
            cases halong with
            | filter hc' hadmits halong =>
                cases hc.symm.trans hc'
                exact ⟨hadmits, last, halong⟩
      | @follow direction constraint r t hr ht =>
          have hmoved := w.moved_length direction r t
          cases more with
          | nil =>
              -- The step joins a row, and there is none.
              constructor
              · intro hholds
                have hall := hholds.length_eq
                have hjoined := (run_scoped hnext hrest).2
                rw [List.append_nil] at hall
                omega
              · rintro ⟨-, last, halong⟩
                cases halong
          | cons nextRow more =>
              have hlength' : (rows ++ [nextRow]).length =
                  (w.moved direction r t).joined.length := by
                rw [hmoved, List.length_append, hlength, List.length_singleton]
              rw [List.append_cons, ih hrest hnext hlength'
                  (moved_row hlength direction r t nextRow) more,
                moved_holds_iff hw hlength hrow, and_assoc]
              apply and_congr_right
              intro _
              constructor
              · rintro ⟨⟨hmem, hrelates⟩, last, halong⟩
                exact ⟨last, .follow hr ht hmem hrelates halong⟩
              · rintro ⟨last, halong⟩
                cases halong with
                | follow hr' ht' hmem hrelates halong =>
                    cases hr.symm.trans hr'
                    cases ht.symm.trans ht'
                    exact ⟨⟨hmem, hrelates⟩, last, halong⟩

/-- Steps lead to the table and the row where the walk along them ends. -/
theorem run_along {steps : List PathElement} (h : w.run m steps = .ok w')
    (hlength : rows.length = w.joined.length)
    (hrow : w.row.at? governed rows = some row) {more : List (Row V)} {t : Table}
    {last : Row V} (halong : Along e db m w.table row steps more t last) :
    t = w'.table ∧ w'.row.at? governed (rows ++ more) = some last := by
  induction steps generalizing w rows row more with
  | nil =>
      cases h
      cases halong
      rw [List.append_nil]
      exact ⟨rfl, hrow⟩
  | cons element rest ih =>
      obtain ⟨next, hstep, hrest⟩ := run_cons_eq_ok.1 h
      cases hstep with
      | filter hc hcondition =>
          cases halong with
          | filter hc' hadmits halong => exact ih hrest hlength hrow halong
      | @follow direction constraint r next hr ht =>
          cases halong with
          | @follow _ _ _ _ _ nextRow _ _ _ _ more hr' ht' hmem hrelates halong =>
              cases hr.symm.trans hr'
              cases ht.symm.trans ht'
              have hlength' : (rows ++ [nextRow]).length =
                  (w.moved direction r next).joined.length := by
                rw [moved_length, List.length_append, hlength,
                  List.length_singleton]
              rw [List.append_cons]
              exact ih hrest hlength' (moved_row hlength direction r next nextRow)
                halong

section Start

variable {t t' : Table} {steps : List PathElement} {last : Row V}
  (h : (start t).run m steps = .ok w)

include h

theorem start_holds_iff : w.Holds e db row rows ↔
    ∃ last, Along e db m t row steps rows w.table last := by
  have hrun : w.Holds e db row ([] ++ rows) ↔
      (start t).Holds e db row [] ∧
        ∃ last, Along e db m t row steps rows w.table last :=
    run_holds_iff h (start_scoped t) rfl rfl rows
  have hstart : (start t).Holds e db row [] := ⟨.nil, by simp [start]⟩
  rw [List.nil_append] at hrun
  simpa only [hstart, true_and] using hrun

theorem start_along (halong : Along e db m t row steps rows t' last) :
    t' = w.table ∧ w.row.at? row rows = some last := by
  have hrow : (start t).row.at? row [] = some row := rfl
  exact run_along h rfl hrow halong

/-- A walk from a row, with the condition of its projected column, holds if its
steps lead from the row to an authorising value. -/
theorem start_authorises_iff (type : ProjectionType) (c : Column)
    (roles : Roles) :
    (w.Holds e db row rows ∧
      (projectedCondition type ⟨w.row, c.name⟩ c roles).Holds e fun name =>
        name.at? row rows) ↔
      ∃ last, Along e db m t row steps rows w.table last ∧
        e.Authorises roles c (last c.name) type := by
  rw [start_holds_iff h]
  constructor
  · rintro ⟨⟨last, halong⟩, hprojected⟩
    obtain ⟨-, hlast⟩ := start_along h halong
    exact ⟨last, halong,
      (projectedCondition_holds_iff type c roles hlast).1 hprojected⟩
  · rintro ⟨last, halong, hauthorises⟩
    obtain ⟨-, hlast⟩ := start_along h halong
    exact ⟨⟨last, halong⟩,
      (projectedCondition_holds_iff type c roles hlast).2 hauthorises⟩

end Start

end Walk

/-! ## Whole paths -/

/-- Where no joined row has the name of the governed row, the names in SQL mean
the rows of the walk. -/
theorem PathCondition.holds_iff {p : PathCondition} {outer : String}
    (houter : outer ∉ p.aliases)
    (hfields : ∀ c ∈ p.conditions, c.Among p.joined.length) (row : Row V) :
    p.Holds e db outer row ↔
      ∃ rows, List.Forall₂ (fun row table => row ∈ db table) rows p.joined ∧
        ∀ c ∈ p.conditions, c.Holds e fun name => name.at? row rows := by
  apply exists_congr
  intro rows
  apply and_congr_right
  intro hrows
  apply forall₂_congr
  intro c hc
  apply Condition.holds_congr
  intro f hf
  exact scope_sql houter hrows.length_eq (hfields c hc f hf)

/-- The condition of a projection holds on the rows from which its path leads to
an authorising value. -/
theorem compileBinding_holds_iff {m : Model} {roles : Roles} {t : Table}
    {alias? : Option String} {b : Binding} {projection : Projection}
    {sql : String} (hclause : b.clause = none)
    (hprojection : b.projection = some projection)
    (hfresh : ∀ index : Nat, alias? ≠ some ("_dyn" ++ toString index))
    (h : compileBinding m roles t alias? b = .ok sql) :
    ∃ steps name p, projection.split = .ok (steps, name) ∧
      pathCondition m roles t projection b.projectionType = .ok p ∧
      p.sql (rowReference t alias?) = sql ∧
      ∀ {V : Type u} (e : Engine V) (db : Database V) (row : Row V),
        p.Holds e db (rowReference t alias?) row ↔
          ∃ rows t' last c, Along e db m t row steps rows t' last ∧
            t'.column? name = some c ∧
            e.Authorises roles c (last c.name) b.projectionType := by
  obtain ⟨p, hp, hsql⟩ := (compileBinding_projection hclause hprojection).1 h
  obtain ⟨steps, name, w, c, hsplit, hrun, hc, hfinish⟩ :=
    pathCondition_eq_ok.1 hp
  have houter : rowReference t alias? ∉ p.aliases := by
    intro hmem
    obtain ⟨index, -, -, hname⟩ := PathCondition.mem_aliases.1 hmem
    exact hfresh index (rowReference_eq_joined_iff.1 hname.symm)
  obtain ⟨hscoped, -⟩ := Walk.run_scoped (Walk.start_scoped t) hrun
  refine ⟨steps, name, p, hsplit, hp, hsql, ?_⟩
  intro V e db row
  subst hfinish
  rw [PathCondition.holds_iff houter (Walk.finish_among hscoped _ _ _)]
  apply exists_congr
  intro rows
  simp only [Walk.finish, List.forall_mem_append, List.forall_mem_singleton]
  rw [← and_assoc]
  refine (Walk.start_authorises_iff hrun _ c roles).trans ?_
  constructor
  · rintro ⟨last, halong, hauthorises⟩
    exact ⟨w.table, last, c, halong, hc, hauthorises⟩
  · rintro ⟨t', last, c', halong, hc', hauthorises⟩
    obtain ⟨rfl, -⟩ := Walk.start_along hrun halong
    cases hc.symm.trans hc'
    exact ⟨last, halong, hauthorises⟩

theorem alias_fresh (index : Nat) : some "d" ≠ some ("_dyn" ++ toString index) := by
  intro h
  have htext := congrArg String.toList (Option.some.inj h)
  simp at htext

theorem compileBinding_holds_iff_workplace :
    ∃ t sql, workplace.tableOf? workplace.documents = some t ∧
      compileBinding workplace (.ofList ["ann"]) t (some "d")
        workplace.binding = .ok sql ∧
      ∃ steps name p, workplace.path.split = .ok (steps, name) ∧
        pathCondition workplace (.ofList ["ann"]) t workplace.path .acl =
          .ok p ∧
        p.sql (rowReference t (some "d")) = sql ∧
        ∀ (e : Engine String) (db : Database String) (row : Row String),
          p.Holds e db (rowReference t (some "d")) row ↔
            ∃ rows t' last c, Along e db workplace t row steps rows t' last ∧
              t'.column? name = some c ∧
              e.Authorises (.ofList ["ann"]) c (last c.name) .acl := by
  obtain ⟨t, p, _, _, ht, hsql⟩ := workplace_compiles (some "d")
  obtain ⟨steps, name, p', hsplit, hp', hsql', hholds⟩ :=
    compileBinding_holds_iff rfl rfl alias_fresh hsql
  exact ⟨t, _, ht, hsql, steps, name, p', hsplit, hp', hsql', hholds⟩

end GovernedCatalog.Guard
