import GovernedCatalog.Guard.Column
import GovernedCatalog.Proofs.Guard.Column
import GovernedCatalog.Proofs.Guard.ConditionText
import GovernedCatalog.Proofs.Introspection.Columns
import GovernedCatalog.Proofs.Introspection.Grouping
import GovernedCatalog.Proofs.Rights.Recollection
import GovernedCatalog.Proofs.Sql.Expression

/-!
# Guards as fragments of queries

The guards of an introspected column are single expressions in SQL, whatever
names, texts and roles they are about, if no binding has a raw clause and the
name of every column's type is that of one type in SQL.  Names of types are the
only texts of the catalog that are put into a guard as they are.
-/

namespace GovernedCatalog

open Introspection Sql Sql.Token Sql.Recogniser

/-- No binding has a raw clause. -/
def Projecting (bindings : Bindings) : Prop :=
  ∀ name b, bindings.get? name = some (.enabled b) → b.clause = none

theorem Projecting.overlay {bindings own : Bindings} (h : Projecting bindings)
    (hown : Projecting own) : Projecting (bindings.overlay own) := by
  intro name b hget
  rw [SortedMap.get?_overlay] at hget
  rcases Option.or_eq_some_iff.1 hget with hget | ⟨-, hget⟩
  · exact hown name b hget
  · exact h name b hget

/-- No binding of the table or of its columns has a raw clause. -/
structure Table.Projects (t : Table) : Prop where
  own : Projecting t.bindings
  columns : ∀ c ∈ t.columns, Projecting c.bindings

/-- The names of the types of the table's columns are those of types in SQL. -/
def Table.TypesNamed (t : Table) : Prop :=
  ∀ c ∈ t.columns, NamesType c.type.ownName

/-- A table with projections only and with flat types that are named. -/
structure Table.Plain (t : Table) : Prop where
  projects : t.Projects
  flat : ∀ c ∈ t.columns, c.type.Flat
  named : t.TypesNamed

theorem Introspection.HasFlatType.type {c : Column} (h : HasFlatType c.content) :
    c.type.Flat := by
  obtain ⟨name, table, content, nullable, comment⟩ := c
  cases h with
  | stored htype => exact htype

namespace Guard

variable {m : Model}

/-- Filters write constants of the types of columns. -/
theorem FilterCondition.constants_write {field : Field} {type : ColumnType}
    {operand : Json} {operator : String} {c : Condition}
    (h : FilterCondition field type operand operator c) (hflat : type.Flat)
    (hname : NamesType type.ownName) :
    ∀ constant ∈ c.constants, Writes (IsConstant 1) constant := by
  cases h with
  | compare hcomparison hconstant =>
      simpa [Condition.constants] using hflat.literal_writes hname hconstant
  | _ => simp [Condition.constants]

section Walks

variable (hm : ∀ path t, m.tableOf? path = some t → t.Plain)

include hm

namespace Walk

variable {w w' : Walk}

/-- The walk is at a plain table, and its conditions have constants of types. -/
structure Written (w : Walk) : Prop where
  table : w.table.Plain
  constants : ∀ c ∈ w.conditions, ∀ constant ∈ c.constants,
    Writes (IsConstant 1) constant

omit hm in
theorem joinConditions_constants {direction : Direction} {r : Reference}
    {row next : RowName} {c : Condition}
    (hc : c ∈ joinConditions direction r row next) : c.constants = [] := by
  obtain ⟨⟨source, target⟩, -, rfl⟩ := List.mem_map.1 hc
  cases direction <;> rfl

theorem Step.written {element : PathElement} (h : Step m w element w')
    (hw : w.Written) : w'.Written := by
  cases h with
  | follow hr hnext =>
      refine ⟨hm _ _ hnext, fun c hc => ?_⟩
      rcases List.mem_append.1 hc with hc | hc
      · exact hw.constants c hc
      · simp [joinConditions_constants hc]
  | filter hcolumn hcondition =>
      refine ⟨hw.table, fun c hc => ?_⟩
      rcases List.mem_append.1 hc with hc | hc
      · exact hw.constants c hc
      have hmem := List.mem_of_find?_eq_some hcolumn
      rw [List.mem_singleton.1 hc]
      exact hcondition.constants_write (hw.table.flat _ hmem)
        (hw.table.named _ hmem)

theorem run_written (hw : w.Written) {steps : List PathElement}
    (h : w.run m steps = .ok w') : w'.Written := by
  induction steps generalizing w with
  | nil =>
      cases h
      exact hw
  | cons element rest ih =>
      obtain ⟨next, hstep, hrest⟩ := run_cons_eq_ok.1 h
      exact ih (hstep.written hm hw) hrest

end Walk

omit hm in
theorem projectedCondition_constants (type : ProjectionType) (field : Field)
    (column : Column) (roles : Roles) :
    (projectedCondition type field column roles).constants = [] := by
  cases type with
  | nonnull => rfl
  | acl =>
      unfold projectedCondition
      cases column.type.isArray <;> rfl

/-- A compiled projection is an expression in parentheses. -/
theorem compileBinding_writes {roles : Roles} {t : Table} (ht : t.Plain)
    {alias? : Option String} {b : Binding} (hclause : b.clause = none)
    {sql : String} (h : compileBinding m roles t alias? b = .ok sql) :
    Writes (IsGroup 4) sql := by
  cases hprojection : b.projection with
  | none =>
      simp only [compileBinding, hclause, hprojection] at h
      cases h
  | some projection =>
      obtain ⟨p, hp, rfl⟩ := (compileBinding_projection hclause hprojection).1 h
      obtain ⟨steps, name, w, c, -, hrun, -, rfl⟩ := pathCondition_eq_ok.1 hp
      have hw : w.Written := Walk.run_written hm ⟨ht, by simp [Walk.start]⟩ hrun
      apply PathCondition.writes (isRow_rowReference t alias?)
      · simp [Walk.finish]
      · intro c hc
        rcases List.mem_append.1 hc with hc | hc
        · exact hw.constants c hc
        · simp [List.mem_singleton.1 hc, projectedCondition_constants]

theorem columnConditions_write {roles : Roles} {c : Column}
    (hc : Projecting c.bindings) {alias? : Option String} {right : Right}
    {conditions : List String}
    (h : columnConditions m roles c alias? right = .ok conditions) :
    ∀ sql ∈ conditions, Writes (IsGroup 4) sql := by
  unfold columnConditions at h
  cases ht : m.tableOf? c.table with
  | none =>
      rw [ht] at h
      cases h
      simp
  | some t =>
      rw [ht] at h
      have hplain := hm _ t ht
      intro sql hsql
      obtain ⟨b, hb, hcompile⟩ := (mem_mapM_iff h).1 hsql
      obtain ⟨name, hget, -⟩ := Bindings.mem_granting_iff.1 hb
      exact compileBinding_writes hm hplain
        ((hplain.projects.own.overlay hc) name b hget) hcompile

end Walks

/-! ## Fragments -/

/-- The text is one expression. -/
abbrev IsFragment (sql : String) : Prop :=
  Writes (IsExpression maxClauseDepth) sql

theorem IsFragment.checkClause {sql : String} (h : IsFragment sql) :
    Sql.checkClause sql = .ok () := by
  obtain ⟨tokens, hspells, hexpression⟩ := h
  exact (checkClause_of_tokens hspells.ofText?).2
    (hexpression.expression_eq (Nat.le_refl _))

theorem true_isFragment : IsFragment "True" :=
  ⟨[.word "True"], .of_readsAs (by decide +kernel),
    ((true_isOperand.phrase 0).expression).mono (by decide)⟩

theorem column_writes (c : Column) (alias? : Option String) :
    Writes (IsOperand 0 tightPrecedence) (c.sql alias?) := by
  have hname : Writes (IsOperand 0 tightPrecedence) (identifier c.name) :=
    ⟨_, whole_identifier c.name, dotted_isOperand _ []⟩
  unfold Column.sql
  split
  · split
    · exact hname
    · next row _ =>
      exact ⟨_, (spells_qualified row c.name).of_quote (by decide),
        dotted_isOperand row [c.name]⟩
  · exact hname

/-- The value where one of the conditions holds, and null elsewhere. -/
theorem whenAny_isFragment {c : Column} (hflat : c.type.Flat)
    (hname : NamesType c.type.ownName) (alias? : Option String)
    {conditions : List String} (hne : conditions ≠ [])
    (hconditions : ∀ sql ∈ conditions, Writes (IsGroup 4) sql) :
    IsFragment ((Shown.whenAny conditions).sql c alias?) := by
  obtain ⟨type, htype, hread⟩ := hflat.storageSql_writes hname
  obtain ⟨value, hvalue, hoperand⟩ := column_writes c alias?
  have hor : Separates " OR " [.word "OR"] :=
    separates_spaced " OR" (by decide +kernel)
  obtain ⟨_, hspells, groups, rfl, hne', hgroups⟩ :=
    Writes.join hor hconditions
  have hcondition : IsPhrase 4 0 orPrecedence (joined [.word "OR"] groups) :=
    isPhrase_joined (hne' hne) or_takesOperand (by decide) fun ts hts lower _ =>
      ((hgroups ts hts).isOperand.phrase lower).mono (Nat.le_refl _) (by decide)
  have hnull := (null_isOperand.phrase 0).cast (by decide) hread
  have hcase := case_isOperand hcondition.expression
    ((hoperand.phrase 0).expression.mono (by decide))
    (hnull.expression.mono (by decide))
  have hwhen : SpellsAlways "CASE WHEN " [.word "CASE", .word "WHEN"] :=
    spells_spaced "CASE WHEN" (by decide +kernel)
  have hthen : Separates " THEN " [.word "THEN"] :=
    separates_spaced " THEN" (by decide +kernel)
  have helse : SpellsAlways " ELSE " [.word "ELSE"] :=
    spells_spaced " ELSE" (by decide +kernel)
  have helseNull : Separates " ELSE NULL::"
      [.word "ELSE", .word "NULL", .mark "::"] :=
    ⟨by decide +kernel, helse.then_ spells_null⟩
  have hend : Delimited " END" ∧ ReadsAs " END" [.word "END"] := by
    decide +kernel
  have hvalues := (hwhen.then_ hspells).separated hthen hvalue
  have hall := (hvalues.separated helseNull htype).ended hend
  refine ⟨_, hall, ?_⟩
  simpa using (hcase.phrase 0).expression.mono (by decide)

theorem shown_isFragment {c : Column} (hflat : c.type.Flat)
    (hname : NamesType c.type.ownName) (alias? : Option String)
    {conditions : List String}
    (hconditions : ∀ sql ∈ conditions, Writes (IsGroup 4) sql) :
    IsFragment ((shown conditions).sql c alias?) := by
  unfold shown
  split
  · obtain ⟨type, htype, hread⟩ := hflat.storageSql_writes hname
    have hnull := (null_isOperand.phrase 0).cast (by decide) hread
    exact ⟨_, spells_null.then_ htype, hnull.expression.mono (by decide)⟩
  · next hne =>
    exact whenAny_isFragment hflat hname alias? (by simpa using hne) hconditions

/-- The condition that one of the other conditions is not known to hold. -/
theorem unless_writes {sql : String} (h : Writes (IsGroup 4) sql) :
    Writes (IsOperand 5 tightPrecedence)
      ("COALESCE(NOT " ++ sql ++ ", True)") := by
  obtain ⟨_, hspells, inner, rfl, hopening, hinner⟩ := h
  have hopen : SpellsAlways "COALESCE(NOT "
      [.word "COALESCE", .mark "(", .word "NOT"] :=
    spells_spaced "COALESCE(NOT" (by decide +kernel)
  have htrue : SpellsWhole ", True" [.mark ",", .word "True"] :=
    .of_readsAs (by decide +kernel)
  have hclose : SpellsAlways ", True)" [.mark ",", .word "True", .mark ")"] :=
    htrue.closed ')' (by decide)
  have hall := (hopen.then_ hspells).before hclose (by decide +kernel)
  refine ⟨_, hall.whole, ?_⟩
  simpa [negated] using coalesce_isOperand hinner hopening

theorem denied_isFragment {conditions : List String}
    (hconditions : ∀ sql ∈ conditions, Writes (IsGroup 4) sql) :
    IsFragment (denied conditions).sql := by
  unfold denied
  split
  · exact true_isFragment
  · next hne =>
    have htexts : ∀ sql ∈ conditions.map fun c => "COALESCE(NOT " ++ c ++
        ", True)", Writes (IsOperand 5 tightPrecedence) sql := by
      intro sql hsql
      obtain ⟨c, hc, rfl⟩ := List.mem_map.1 hsql
      exact unless_writes (hconditions c hc)
    obtain ⟨_, hspells, operands, rfl, hne', hoperands⟩ :=
      Writes.join separates_and htexts
    have hphrase : IsPhrase 5 0 andPrecedence
        (joined [.word "AND"] operands) :=
      isPhrase_joined (hne' (by simpa using hne)) and_takesOperand (by decide)
        fun ts hts lower _ => ((hoperands ts hts).phrase lower).mono
          (Nat.le_refl _) (by decide)
    have hgroup := group_isOperand hphrase.expression
    have hopen := spells_delimiter '(' (by decide)
    have hall := hopen.then_ (hspells.closed ')' (by decide))
    rw [← String.append_assoc] at hall
    exact ⟨_, hall.whole, (hgroup.phrase 0).expression.mono (by decide)⟩

/-! ## Compiled guards -/

/-- Whatever is decided, a guard that is compiled is one expression. -/
theorem compileColumn_isFragment {m : Model}
    (hm : ∀ path t, m.tableOf? path = some t → t.Plain) (roles : Roles)
    {c : Column} (hc : Projecting c.bindings) (hflat : c.type.Flat)
    (hname : NamesType c.type.ownName) (alias? : Option String) (mode : Mode)
    (right : Right) {ask : Ask (StateM Context)} {ctx : Context} {sql : String}
    (h : ((compileColumn ask m roles c alias? mode right).run ctx).1 = .ok sql) :
    IsFragment sql := by
  have hcolumn : IsFragment (Shown.always.sql c alias?) :=
    (column_writes c alias?).mono fun _ h =>
      (h.phrase 0).expression.mono (by decide)
  unfold compileColumn at h
  rw [run_bind] at h
  generalize ((ask (.column c) right).run ctx).1 = d at h
  cases d with
  | deny => cases h
  | allow =>
      cases mode with
      | projection =>
          cases h
          exact hcolumn
      | predicate =>
          cases h
          exact true_isFragment
  | indeterminate =>
      cases mode with
      | predicate =>
          obtain ⟨conditions, hconditions, rfl⟩ :=
            map_eq_ok.1 (mapError_eq_ok.1 h)
          exact denied_isFragment (columnConditions_write hm hc hconditions)
      | projection =>
          dsimp only at h
          rw [run_bind] at h
          split at h
          · obtain ⟨conditions, hconditions, rfl⟩ :=
              map_eq_ok.1 (mapError_eq_ok.1 h)
            exact shown_isFragment hflat hname alias?
              (columnConditions_write hm hc hconditions)
          · cases h
            exact hcolumn

theorem mem_allTables_of_tableOf? {m : Model} {path : TablePath} {t : Table}
    (h : m.tableOf? path = some t) : t ∈ m.allTables := by
  obtain ⟨s, hs, hget⟩ := Option.bind_eq_some_iff.1 h
  unfold Model.schemaOf? at hs
  rw [Model.mem_allTables]
  split at hs
  · cases hs
    exact .inr ⟨_, hget⟩
  · exact .inl ⟨path, Model.table?_eq_some_iff.2 ⟨s, hs, hget⟩⟩

/-- A guard that is compiled for an introspected column is one expression in
SQL, if all bindings are projections and the types of columns have names of
types. -/
theorem compileColumn_checked {reader : Reader} {settings : Settings}
    {result : Introspection} (hrun : run reader settings = .ok result)
    (hprojects : ∀ t ∈ result.model.allTables, t.Projects)
    (hnamed : ∀ t ∈ result.model.allTables, t.TypesNamed) {t : Table}
    (ht : t ∈ result.model.allTables) {c : Column} (hc : c ∈ t.columns)
    (stamp : Nat) (ctx : Context) (alias? : Option String) (mode : Mode)
    (right : Right) {sql : String}
    (h : ((Snapshot.mk stamp result.model).evaluate ctx fun ask =>
      compileColumn ask result.model ctx.roles c alias? mode right).1 =
        .ok sql) :
    Sql.checkClause sql = .ok () := by
  have hflat (t : Table) (ht : t ∈ result.model.allTables) (c : Column)
      (hc : c ∈ t.columns) : c.type.Flat :=
    (run_flat reader settings result hrun t ht c hc).type
  have hplain (path : TablePath) (t : Table)
      (h : result.model.tableOf? path = some t) : t.Plain :=
    have ht := mem_allTables_of_tableOf? h
    ⟨hprojects t ht, hflat t ht, hnamed t ht⟩
  exact (compileColumn_isFragment hplain ctx.roles ((hprojects t ht).columns c hc)
    (hflat t ht c hc) (hnamed t ht c hc) alias? mode right h).checkClause

/-- Orders whose state is of a domain, and is shown where there is one. -/
def orders (domain : String) : Dump where
  schemas := [⟨"shop", none⟩]
  columns :=
    [{ table := ⟨"shop", "orders"⟩
       kind := "r"
       comment := none
       names := ["id", "state"]
       defaults := []
       types := ["text", domain]
       elementTypes := []
       domainBases := [none, some "text"]
       comments := []
       notNulls := [] }]
  tables :=
    [⟨⟨"_ermrest", "model_catalog_acl"⟩, "r", none⟩,
      ⟨⟨"_ermrest", "model_table_acl"⟩, "r", none⟩,
      ⟨⟨"_ermrest", "model_column_acl"⟩, "r", none⟩,
      ⟨⟨"_ermrest", "model_column_dynacl"⟩, "r", none⟩]
  uniques := []
  foreignKeys := []
  annotations := []
  acls :=
    [(.catalog, [⟨{ target with schema := none }, "enumerate", ["*"]⟩]),
      (.table, [⟨{ target with table := some "orders" }, "select", ["*"]⟩]),
      (.column, [⟨state, "select", []⟩])]
  bindings :=
    [(.column, [⟨state, "known", .enabled
      ⟨[.select], some (.column "state"), .nonnull, none, Binding.everyone⟩⟩])]
where
  target : Dump.Target :=
    ⟨some "shop", none, none, none, none, none, none, none, none, none⟩
  state : Dump.Target :=
    { target with table := some "orders", column := some "state" }

/-- What is shown of the state of an order. -/
def orders.guard (m : Model) : Option String := do
  let t ← m.tableOf? ⟨"shop", "orders"⟩
  let c ← t.column? "state"
  ((Snapshot.mk 0 m).evaluate (.fresh {}) fun ask =>
    compileColumn ask m {} c none .projection .select).1.toOption

/-- Whether all bindings are projections, and the types of columns are texts or
of the domain. -/
def orders.plain (domain : String) (m : Model) : Bool :=
  m.allTables.all fun t =>
    projecting t.bindings && t.columns.all fun c =>
      projecting c.bindings && ["text", domain].contains c.type.ownName
where
  projecting (bindings : Bindings) : Bool :=
    bindings.values.all fun binding =>
      (binding.enabled?.bind (·.clause)).isNone

/-- The text of the guard, with the name of the domain in it. -/
def orders.sql (domain : String) : String :=
  "CASE WHEN (" ++ qualified "shop" "orders" ++ "." ++ identifier "state" ++
    " IS NOT NULL) THEN " ++ identifier "state" ++ " ELSE NULL::" ++ domain ++
      " END"

theorem orders_run {domain : String}
    (hdomain : domain ∈ ["order_status", "order status"]) :
    ∃ result, run (orders domain).reader .standard = .ok result ∧
      orders.guard result.model = some (orders.sql domain) ∧
      orders.plain domain result.model = true := by
  have huniques : (orders domain).sortedUniques .standard = [] :=
    List.mergeSort_of_pairwise .nil
  have hforeignKeys : (orders domain).sortedForeignKeys .standard = [] :=
    List.mergeSort_of_pairwise .nil
  have hrun : (run (orders domain).reader .standard).toOption.any (fun result =>
      orders.guard result.model == some (orders.sql domain) &&
        orders.plain domain result.model) = true := by
    unfold run
    rw [readStructure_eq, huniques, hforeignKeys]
    simp only [List.mem_cons, List.not_mem_nil, or_false] at hdomain
    rcases hdomain with rfl | rfl <;> decide +kernel
  obtain ⟨result, hresult, hchecks⟩ := (Option.any_eq_true ..).1 hrun
  simp only [Bool.and_eq_true, beq_iff_eq] at hchecks
  exact ⟨result, toOption_eq_some_iff.1 hresult, hchecks⟩

theorem orders_plain {domain : String} {m : Model}
    (h : orders.plain domain m = true) {t : Table} (ht : t ∈ m.allTables) :
    t.Projects ∧ ∀ c ∈ t.columns, c.type.ownName ∈ ["text", domain] := by
  have hprojecting {bindings : Bindings}
      (h : orders.plain.projecting bindings = true) : Projecting bindings := by
    intro name b hget
    have hmem : AclBinding.enabled b ∈ bindings.values :=
      SortedMap.mem_values_iff.2 ⟨name, hget⟩
    have hnone := List.all_eq_true.1 h _ hmem
    simpa [AclBinding.enabled?] using hnone
  have hchecks := List.all_eq_true.1 h t ht
  rw [Bool.and_eq_true, List.all_eq_true] at hchecks
  obtain ⟨hown, hcolumns⟩ := hchecks
  simp only [Bool.and_eq_true, List.contains_iff_mem] at hcolumns
  exact ⟨⟨hprojecting hown, fun c hc => hprojecting (hcolumns c hc).1⟩,
    fun c hc => (hcolumns c hc).2⟩

/-- The guard of the state of an order is compiled. -/
theorem orders_guard {m : Model} {sql : String}
    (h : orders.guard m = some sql) :
    ∃ t c, t ∈ m.allTables ∧ c ∈ t.columns ∧
      ((Snapshot.mk 0 m).evaluate (.fresh {}) fun ask =>
        compileColumn ask m {} c none .projection .select).1 = .ok sql := by
  obtain ⟨t, ht, h⟩ := Option.bind_eq_some_iff.1 h
  obtain ⟨c, hc, h⟩ := Option.bind_eq_some_iff.1 h
  exact ⟨t, c, mem_allTables_of_tableOf? ht, List.mem_of_find?_eq_some hc,
    toOption_eq_some_iff.1 h⟩

theorem compileColumn_checked_orders :
    ∃ result t c, run (orders "order_status").reader .standard = .ok result ∧
      (∀ t ∈ result.model.allTables, t.Projects) ∧
      (∀ t ∈ result.model.allTables, t.TypesNamed) ∧
      t ∈ result.model.allTables ∧ c ∈ t.columns ∧
      ((Snapshot.mk 0 result.model).evaluate (.fresh {}) fun ask =>
        compileColumn ask result.model {} c none .projection .select).1 =
          .ok (orders.sql "order_status") ∧
      Sql.checkClause (orders.sql "order_status") = .ok () := by
  have hdomain : "order_status" ∈ ["order_status", "order status"] := by simp
  obtain ⟨result, hrun, hguard, hplain⟩ := orders_run hdomain
  obtain ⟨t, c, ht, hc, hsql⟩ := orders_guard hguard
  have hprojects (t : Table) (ht : t ∈ result.model.allTables) : t.Projects :=
    (orders_plain hplain ht).1
  have hnamed (t : Table) (ht : t ∈ result.model.allTables) : t.TypesNamed := by
    intro c hc
    rcases List.mem_pair.1 ((orders_plain hplain ht).2 c hc) with hname | hname
    · rw [hname]
      exact text_namesType
    · rw [hname]
      exact namesType_of_readsAs [.word "order_status"] (by decide +kernel)
  exact ⟨result, t, c, hrun, hprojects, hnamed, ht, hc, hsql,
    compileColumn_checked hrun hprojects hnamed ht hc 0 (.fresh {}) none
      .projection .select hsql⟩

/-- A name of two words is put into the guard of a column as it is, and the guard
is no expression. -/
theorem orders_split :
    ∃ result t c, run (orders "order status").reader .standard = .ok result ∧
      (∀ t ∈ result.model.allTables, t.Projects) ∧
      t ∈ result.model.allTables ∧ c ∈ t.columns ∧
      ((Snapshot.mk 0 result.model).evaluate (.fresh {}) fun ask =>
        compileColumn ask result.model {} c none .projection .select).1 =
          .ok (orders.sql "order status") ∧
      Sql.checkClause (orders.sql "order status") ≠ .ok () := by
  have hdomain : "order status" ∈ ["order_status", "order status"] := by simp
  obtain ⟨result, hrun, hguard, hplain⟩ := orders_run hdomain
  obtain ⟨t, c, ht, hc, hsql⟩ := orders_guard hguard
  refine ⟨result, t, c, hrun, fun t ht => (orders_plain hplain ht).1, ht, hc,
    hsql, ?_⟩
  rw [ne_eq, Sql.checkClause_eq_ok]
  decide +kernel

end Guard

end GovernedCatalog
