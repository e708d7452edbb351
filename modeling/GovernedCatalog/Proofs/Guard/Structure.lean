import GovernedCatalog.Proofs.Guard.Steps
import GovernedCatalog.Proofs.Model.View
import GovernedCatalog.Proofs.Policy.Validity

/-!
# The structure of stored bindings

A binding is checked when it is stored, and its path is walked when it is compiled.
The check looks at the end of the path only.  A step that no walk can take, wherever
it stands, is found when it is reached: the binding is stored, and compiles nowhere.
-/

namespace GovernedCatalog

namespace Guard

def filterOperators : List String :=
  ["::null::", "::regexp::", "::ciregexp::", "=", "::lt::", "::leq::", "::gt::", "::geq::"]

/-- What is wrong with a filter, whatever column it is put on. -/
inductive FilterFault (operand : Json) (operator : String) : Error → Prop
  | pattern (hoperator : operator = "::regexp::" ∨ operator = "::ciregexp::")
      (hoperand : ∀ p, operand ≠ .str p) : FilterFault operand operator .patternNotText
  | operator (hunknown : operator ∉ filterOperators) :
      FilterFault operand operator (.unsupportedOperator operator)

/-- The errors of bindings that no model is needed to find. -/
def Structural : Error → Prop
  | .columnInsidePath _ | .patternNotText | .unsupportedOperator _
  | .pathWithoutColumn | .bindingWithoutSource => True
  | _ => False

end Guard

open Guard

/-- What is wrong with an element as a step of a path, whatever table it meets. -/
inductive PathElement.Fault : PathElement → Error → Prop
  | column {name : String} : Fault (.column name) (.columnInsidePath name)
  | filter {name : String} {operand : Json} {operator : Option String} {e : Error}
      (h : FilterFault operand (operator.getD "=") e) :
      Fault (.filter name operand operator) e

/-- An element that some walk can take. -/
def PathElement.Sound (element : PathElement) : Prop := ∀ e, ¬element.Fault e

/-- The elements before the column at the end of a path. -/
def Projection.steps : Projection → List PathElement
  | .column _ => []
  | .path elements => elements.dropLast

/-- The steps of a binding that has a projection and no clause. -/
def Binding.steps (b : Binding) : List PathElement :=
  match b.clause, b.projection with
  | none, some projection => projection.steps
  | _, _ => []

theorem Projection.steps_eq {p : Projection} {steps : List PathElement} {name : String}
    (h : p.split = .ok (steps, name)) : p.steps = steps := by
  unfold split at h
  split at h
  · cases h
    rfl
  · split at h
    · cases h
      rfl
    · cases h

theorem Guard.Structural.kind_eq {e : Error} (h : Structural e) : e.kind = .badData := by
  cases e <;> first | rfl | exact h.elim

theorem PathElement.Fault.structural {element : PathElement} {e : Error}
    (h : element.Fault e) : Structural e := by
  cases h with
  | column => trivial
  | filter h => cases h <;> trivial

namespace Guard

/-! ## Filters -/

section Filter

variable {field : Field} {type : ColumnType} {operand : Json} {operator : String} {e : Error}

theorem mem_filterOperators {comparison : Comparison}
    (h : Comparison.ofOperator? operator = some comparison) :
    operator ∈ filterOperators := by
  unfold Comparison.ofOperator? at h
  split at h
  all_goals first | decide | cases h

theorem FilterFault.filterCondition (h : FilterFault operand operator e) :
    Walk.filterCondition field type operand operator = .error e := by
  cases h with
  | pattern hoperator hoperand =>
    rcases hoperator with rfl | rfl
    all_goals
      cases operand with
      | str p => exact absurd rfl (hoperand p)
      | _ => rfl
  | operator hunknown =>
    unfold Walk.filterCondition
    extract_lets pattern
    split
    · exact absurd (by decide) hunknown
    · exact absurd (by decide) hunknown
    · exact absurd (by decide) hunknown
    · cases hcomparison : Comparison.ofOperator? operator with
      | none => rfl
      | some comparison => exact absurd (mem_filterOperators hcomparison) hunknown

/-- A filter has a fault, or it compares its column with a constant of the column's
type and there is none. -/
theorem Walk.filterCondition_eq_error
    (h : Walk.filterCondition field type operand operator = .error e) :
    FilterFault operand operator e ∨ type.literal operand = .error e := by
  unfold filterCondition at h
  extract_lets pattern at h
  have hpattern : ∀ caseSensitive, pattern caseSensitive = .error e →
      e = .patternNotText ∧ ∀ p, operand ≠ .str p := by
    intro caseSensitive h
    cases operand with
    | str p => cases h
    | _ =>
      cases h
      exact ⟨rfl, nofun⟩
  split at h
  · cases h
  · obtain ⟨rfl, hoperand⟩ := hpattern _ h
    exact .inl (.pattern (.inl rfl) hoperand)
  · obtain ⟨rfl, hoperand⟩ := hpattern _ h
    exact .inl (.pattern (.inr rfl) hoperand)
  · next hnull hregexp hciregexp =>
    cases hcomparison : Comparison.ofOperator? operator with
    | none =>
      rw [hcomparison] at h
      cases h
      refine .inl (.operator fun hmem => ?_)
      simp only [filterOperators, List.mem_cons, List.not_mem_nil, or_false] at hmem
      rcases hmem with rfl | rfl | rfl | rfl | rfl | rfl | rfl | rfl
      all_goals contradiction
    | some comparison =>
      rw [hcomparison] at h
      exact .inr (map_eq_error.1 h)

end Filter

/-! ## Steps -/

namespace Walk

variable {m : Model} {w w' : Walk} {element : PathElement} {e : Error}

/-- How a walk can fail to take a step. -/
inductive Fails (w : Walk) : PathElement → Error → Prop
  /-- The model has no such column or reference, or not what it leads to. -/
  | model {element : PathElement} {e : Error} (hkind : e.kind = .modelConflict) :
      Fails w element e
  | fault {element : PathElement} {e : Error} (h : element.Fault e) : Fails w element e
  /-- A filter's operand is no constant of the column's type. -/
  | literal {name : String} {operand : Json} {operator : Option String} {c : Column}
      {e : Error} (hc : w.table.column? name = some c)
      (hliteral : c.type.literal operand = .error e) :
      Fails w (.filter name operand operator) e

theorem reference_eq_error {direction : Direction} {constraint : ConstraintName}
    (h : w.reference m direction constraint = .error e) :
    e.kind = .modelConflict := by
  unfold reference at h
  extract_lets answer at h
  have hanswer : ∀ found, answer found = .error e → e.kind = .modelConflict := by
    intro found h
    cases found with
    | some r => cases h
    | none =>
      cases h
      rfl
  cases direction with
  | outbound => exact hanswer _ h
  | inbound =>
    dsimp only at h
    split at h
    · exact hanswer _ h
    · cases h
      rfl

theorem follow_eq_error {direction : Direction} {r : Reference}
    (h : w.follow m direction r = .error e) : e.kind = .modelConflict := by
  unfold follow at h
  extract_lets path at h
  cases hnext : m.tableOf? path with
  | none =>
    simp only [hnext] at h
    cases h
    rfl
  | some next =>
    simp only [hnext] at h
    cases h

theorem column_eq_error {name : String} (h : w.column name = .error e) :
    e.kind = .modelConflict := by
  unfold column at h
  split at h
  · cases h
  · cases h
    rfl

theorem fails_of_step (h : w.step m element = .error e) : w.Fails element e := by
  cases element with
  | follow direction constraint =>
    rcases bind_eq_error.1 h with h | ⟨r, -, h⟩
    · exact .model (reference_eq_error h)
    · exact .model (follow_eq_error h)
  | filter name operand operator =>
    rcases bind_eq_error.1 h with h | ⟨c, hc, h⟩
    · exact .model (column_eq_error h)
    rcases bind_eq_error.1 h with h | ⟨condition, -, h⟩
    · rcases filterCondition_eq_error h with hfault | hliteral
      · exact .fault (.filter hfault)
      · exact .literal (column_eq_ok.1 hc) hliteral
    · cases h
  | column name =>
    cases h
    exact .fault .column

theorem step_of_fault (h : element.Fault e)
    (hcolumn : ∀ name operand operator, element = .filter name operand operator →
      ∃ c, w.table.column? name = some c) : w.step m element = .error e := by
  cases h with
  | column => rfl
  | filter hfault =>
    obtain ⟨c, hc⟩ := hcolumn _ _ _ rfl
    simp only [step, column_eq_ok.2 hc, bind, Except.bind, hfault.filterCondition]

/-- No walk takes a step that is not sound. -/
theorem Step.sound (h : Step m w element w') : element.Sound := by
  intro e hfault
  have hok := step_eq_ok.2 h
  cases hfault with
  | column => cases hok
  | @filter name operand operator _ hfault =>
    cases h with
    | filter hc hcondition =>
      rw [← filterCondition_eq_ok, hfault.filterCondition] at hcondition
      cases hcondition

theorem fails_of_run {steps : List PathElement} (h : w.run m steps = .error e) :
    ∃ element ∈ steps, ∃ w' : Walk, w'.Fails element e := by
  induction steps generalizing w with
  | nil => cases h
  | cons element rest ih =>
    rw [run_cons] at h
    rcases bind_eq_error.1 h with hstep | ⟨next, -, hrest⟩
    · exact ⟨element, List.mem_cons_self, w, fails_of_step hstep⟩
    · obtain ⟨element', hmem, hfails⟩ := ih hrest
      exact ⟨element', List.mem_cons_of_mem _ hmem, hfails⟩

theorem run_sound {steps : List PathElement} (h : w.run m steps = .ok w') :
    ∀ element ∈ steps, element.Sound := by
  induction steps generalizing w with
  | nil => exact List.forall_mem_nil _
  | cons element rest ih =>
    obtain ⟨next, hstep, hrest⟩ := run_cons_eq_ok.1 h
    exact List.forall_mem_cons.2 ⟨hstep.sound, ih hrest⟩

end Walk

/-! ## Bindings -/

theorem pathCondition_of_split {projection : Projection} {steps : List PathElement}
    {name : String} (h : projection.split = .ok (steps, name)) (m : Model) (roles : Roles)
    (t : Table) (type : ProjectionType) :
    pathCondition m roles t projection type =
      (Walk.start t).run m steps >>= fun w => w.column name >>= fun c =>
        .ok (w.finish (projectedCondition type ⟨w.row, c.name⟩ c roles)) := by
  unfold pathCondition
  rw [h]
  rfl

/-- A stored binding has a clause and no steps, or walks its steps to a column. -/
theorem clause_or_steps {kind : AclKind} {b : Binding}
    (hb : b.WellFormed kind) :
    (b.steps = [] ∧ ∃ clause, b.clause = some clause) ∨
      ∃ name, ∀ (m : Model) (roles : Roles) (t : Table) (alias? : Option String),
        compileBinding m roles t alias? b =
          (Walk.start t).run m b.steps >>= fun w => w.column name >>= fun c =>
            .ok ((w.finish (projectedCondition b.projectionType ⟨w.row, c.name⟩ c
              roles)).sql (rowReference t alias?)) := by
  cases hclause : b.clause with
  | some clause => exact .inl ⟨by simp only [Binding.steps, hclause], clause, rfl⟩
  | none =>
    obtain ⟨projection, hprojection⟩ : ∃ projection, b.projection = some projection :=
      Option.isSome_iff_exists.1 (by rw [hb.one_source, hclause]; rfl)
    obtain ⟨steps, name, hsplit⟩ := hb.splits projection hprojection
    refine .inr ⟨name, fun m roles t alias? => ?_⟩
    unfold compileBinding
    simp only [Binding.steps, hclause, hprojection, Projection.steps_eq hsplit,
      pathCondition_of_split hsplit, bind_assoc]
    rfl

section Compiled

variable {kind : AclKind} {b : Binding} (hb : b.WellFormed kind) {m : Model} {roles : Roles}
  {t : Table} {alias? : Option String} {e : Error}

include hb

/-- A stored binding fails to compile because of the model, or at one of its steps. -/
theorem compileBinding_eq_error (h : compileBinding m roles t alias? b = .error e) :
    e.kind = .modelConflict ∨ ∃ element ∈ b.steps, ∃ w : Walk, w.Fails element e := by
  rcases clause_or_steps hb with ⟨-, clause, hclause⟩ | ⟨name, hcompile⟩
  · unfold compileBinding Sql.checkClause at h
    simp only [hclause] at h
    split at h
    · cases h
    · cases h
      exact .inl rfl
  · rw [hcompile] at h
    rcases bind_eq_error.1 h with hrun | ⟨w, -, h⟩
    · exact .inr (Walk.fails_of_run hrun)
    rcases bind_eq_error.1 h with hc | ⟨c, -, h⟩
    · exact .inl (Walk.column_eq_error hc)
    · cases h

theorem compileBinding_sound {sql : String} (h : compileBinding m roles t alias? b = .ok sql) :
    ∀ element ∈ b.steps, element.Sound := by
  rcases clause_or_steps hb with ⟨hsteps, -⟩ | ⟨name, hcompile⟩
  · rw [hsteps]
    exact List.forall_mem_nil _
  · rw [hcompile] at h
    obtain ⟨w, hw, -⟩ := bind_eq_ok.1 h
    exact Walk.run_sound hw

theorem compileBinding_of_run (h : (Walk.start t).run m b.steps = .error e) :
    compileBinding m roles t alias? b = .error e := by
  rcases clause_or_steps hb with ⟨hsteps, -⟩ | ⟨name, hcompile⟩
  · rw [hsteps] at h
    cases h
  · rw [hcompile, h]
    rfl

end Compiled

theorem literal_avoids {e : Error} (h : Structural e) (type : ColumnType) (value : Json) :
    Avoids (type.literal value) e := by
  have hother : ∀ name value, Error.invalidLiteral name value ≠ e := by
    rintro name value rfl
    exact h
  induction type generalizing value with
  | array base ih =>
    cases value with
    | arr items => exact .bind (.mapM fun item _ => ih item) fun _ => .ok
    | _ => exact .error (hother _ _)
  | scalar name =>
    cases hconstant : constantText? name value with
    | some constant => simp [Avoids, ColumnType.literal, hconstant]
    | none => simpa [Avoids, ColumnType.literal, hconstant] using hother name value
  | domain name base _ =>
    cases hconstant : constantText? name value with
    | some constant => simp [Avoids, ColumnType.literal, hconstant]
    | none => simpa [Avoids, ColumnType.literal, hconstant] using hother name value

/-! ## A table on which every sound step can be taken

It has the columns of all filters, and one reference, which leads back to it and has
the constraints of all other steps. -/

namespace Hub

def path : TablePath := ⟨"net", "hub"⟩

def mapping : ReferenceMap := ⟨path, .ofList [("id", "id")], by decide⟩

def constraints (steps : List PathElement) : List ConstraintName :=
  steps.filterMap fun
    | .follow _ constraint => some constraint
    | _ => none

def columns (steps : List PathElement) : List String :=
  steps.filterMap fun
    | .filter name _ _ => some name
    | _ => none

def reference (steps : List PathElement) : Reference :=
  { Reference.fresh path mapping .noAction .noAction with
    constraints := .ofList (constraints steps) }

def key : UniqueKey :=
  { UniqueKey.fresh path mapping.toColumns with
    referencedBy := .ofList [⟨path, mapping⟩] }

def table (steps : List PathElement) : Table :=
  { Table.fresh path.schema path.table .table with
    columns := (columns steps).map fun name =>
      .stored path name 0 (.scalar "jsonb") none
    keys := .ofList [(mapping.toColumns, key)]
    foreignKeys := .ofList [(mapping.fromColumns,
      ⟨path, mapping.fromColumns, .ofList [(mapping, reference steps)]⟩)] }

def model (steps : List PathElement) : Model :=
  { Model.fresh "sys" with
    schemas := .ofList [(path.schema,
      { Schema.fresh path.schema with tables := .ofList [(path.table, table steps)] })] }

theorem table?_hub (steps : List PathElement) :
    (model steps).table? path = some (table steps) := by
  exact Model.table?_eq_some_iff.2
    ⟨_, SortedMap.get?_ofList_single .., SortedMap.get?_ofList_single ..⟩

theorem tableOf?_hub (steps : List PathElement) :
    (model steps).tableOf? path = some (table steps) := by
  have hvisible : path.schema ≠ (model steps).systemSchema.name :=
    (by decide : "net" ≠ "sys")
  unfold Model.tableOf? Model.schemaOf?
  rw [if_neg hvisible]
  exact table?_hub steps

theorem references_hub (steps : List PathElement) (direction : Direction) :
    (model steps).references? (table steps) direction = some [reference steps] := by
  cases direction with
  | outbound => rfl
  | inbound =>
    have hreference : (model steps).reference ⟨path, mapping⟩ = .ok (reference steps) := by
      refine Model.reference_eq_ok_iff.2 (Model.reference?_eq_some_iff.2
        ⟨table steps, table?_hub steps, ?_⟩)
      exact Option.bind_eq_some_iff.2
        ⟨_, SortedMap.get?_ofList_single .., SortedMap.get?_ofList_single ..⟩
    have hinbound : (model steps).inboundReferences path = .ok [reference steps] := by
      refine bind_eq_ok.2 ⟨table steps, Model.table_eq_ok_iff.2 (table?_hub steps), ?_⟩
      change [ReferenceId.mk path mapping].mapM (model steps).reference = _
      rw [List.mapM_cons, hreference]
      rfl
    change ((model steps).inboundReferences path).toOption = _
    rw [hinbound]
    rfl

variable {all : List PathElement} {w : Walk}

theorem exists_column {name : String} {operand : Json} {operator : Option String}
    (h : .filter name operand operator ∈ all) :
    ∃ c, (table all).column? name = some c ∧ c.type = .scalar "jsonb" := by
  have hname : name ∈ columns all := List.mem_filterMap.2 ⟨_, h, rfl⟩
  have hsome : ((table all).column? name).isSome = true := by
    refine List.find?_isSome.2 ⟨_, List.mem_map_of_mem hname, ?_⟩
    simp [Column.stored]
  obtain ⟨c, hc⟩ := Option.isSome_iff_exists.1 hsome
  obtain ⟨name', -, rfl⟩ := List.mem_map.1 (List.mem_of_find?_eq_some hc)
  exact ⟨_, hc, rfl⟩

theorem exists_step {element : PathElement} (h : element ∈ all) (hsound : element.Sound)
    (hw : w.table = table all) :
    ∃ w', Walk.Step (model all) w element w' ∧ w'.table = table all := by
  cases element with
  | column name => exact absurd .column (hsound _)
  | follow direction constraint =>
    have hconstraint : constraint ∈ constraints all := List.mem_filterMap.2 ⟨_, h, rfl⟩
    have hr : (model all).followed? w.table direction constraint = some (reference all) := by
      have hcontains : (reference all).constraints.contains constraint = true :=
        SortedSet.contains_iff.2 (SortedSet.mem_ofList.2 hconstraint)
      unfold Model.followed?
      rw [hw, references_hub, Option.bind_some, List.find?_cons, hcontains]
    have hnext : (model all).tableOf? ((reference all).far direction) =
        some (table all) := by
      cases direction <;> exact tableOf?_hub all
    exact ⟨_, .follow hr hnext, rfl⟩
  | filter name operand operator =>
    obtain ⟨c, hc, htype⟩ := exists_column h
    cases hcondition : Walk.filterCondition ⟨w.row, c.name⟩ c.type operand
        (operator.getD "=") with
    | ok condition =>
      exact ⟨_, .filter (hw ▸ hc) (Walk.filterCondition_eq_ok.1 hcondition), hw⟩
    | error e =>
      rcases Walk.filterCondition_eq_error hcondition with hfault | hliteral
      · exact absurd (.filter hfault) (hsound e)
      · rw [htype] at hliteral
        cases hliteral

/-- A walk on the hub stops at the first step that is not sound. -/
theorem run_structural {rest : List PathElement} (hall : ∀ element ∈ rest, element ∈ all)
    (hw : w.table = table all) (h : ¬∀ element ∈ rest, element.Sound) :
    ∃ e, Structural e ∧ w.run (model all) rest = .error e := by
  induction rest generalizing w with
  | nil => exact absurd (List.forall_mem_nil _) h
  | cons element rest ih =>
    obtain ⟨helement, hrest⟩ := List.forall_mem_cons.1 hall
    rw [List.forall_mem_cons] at h
    by_cases hsound : element.Sound
    · obtain ⟨next, hstep, hnext⟩ := exists_step helement hsound hw
      obtain ⟨e, he, hrun⟩ := ih hrest hnext fun hrest => h ⟨hsound, hrest⟩
      refine ⟨e, he, ?_⟩
      rw [Walk.run_cons, Walk.step_eq_ok.2 hstep]
      exact hrun
    · obtain ⟨e, hfault⟩ : ∃ e, element.Fault e := by
        simpa [PathElement.Sound] using hsound
      have hstep : w.step (model all) element = .error e := by
        refine Walk.step_of_fault hfault fun name operand operator heq => ?_
        obtain ⟨c, hc, -⟩ := exists_column (heq ▸ helement)
        exact ⟨c, hw ▸ hc⟩
      refine ⟨e, hfault.structural, ?_⟩
      rw [Walk.run_cons, hstep]
      rfl

end Hub

/-- A stored binding never fails for its structure exactly if all its steps are sound.
If one of them is not, the binding compiles on no table of any model; and data that is
bad for another reason is a filter's operand that is no constant of a column's type. -/
theorem compileBinding_structural_iff {kind : AclKind} {b : Binding}
    (h : b.validate kind = .ok ()) :
    ((∀ m roles t alias? e, compileBinding m roles t alias? b = .error e → ¬Structural e) ↔
      ∀ element ∈ b.steps, element.Sound) ∧
    (∀ m roles t alias? sql, compileBinding m roles t alias? b = .ok sql →
      ∀ element ∈ b.steps, element.Sound) ∧
    ∀ m roles t alias? e, compileBinding m roles t alias? b = .error e →
      e.kind = .badData → Structural e ∨
        ∃ name operand operator, .filter name operand operator ∈ b.steps ∧
          ∃ type : ColumnType, type.literal operand = .error e := by
  have hb := Binding.validate_eq_ok_iff.1 h
  refine ⟨⟨fun hnever => ?_, ?_⟩, fun _ _ _ _ _ => compileBinding_sound hb, ?_⟩
  · by_contra hunsound
    obtain ⟨e, he, hrun⟩ := Hub.run_structural (fun _ => id)
      (w := Walk.start (Hub.table b.steps)) rfl hunsound
    exact hnever _ ∅ _ none e (compileBinding_of_run hb hrun) he
  · intro hsound m roles t alias? e herror he
    rcases compileBinding_eq_error hb herror with hkind | ⟨element, hmem, w, hfails⟩
    · rw [he.kind_eq] at hkind
      cases hkind
    · cases hfails with
      | model hkind =>
        rw [he.kind_eq] at hkind
        cases hkind
      | fault hfault => exact hsound element hmem e hfault
      | literal hc hliteral => exact literal_avoids he _ _ hliteral
  · intro m roles t alias? e herror hbad
    rcases compileBinding_eq_error hb herror with hkind | ⟨element, hmem, w, hfails⟩
    · rw [hbad] at hkind
      cases hkind
    · cases hfails with
      | model hkind =>
        rw [hbad] at hkind
        cases hkind
      | fault hfault => exact .inl hfault.structural
      | literal hc hliteral => exact .inr ⟨_, _, _, hmem, _, hliteral⟩

/-- A binding that goes through an element to the owner of a parcel. -/
def ownerThrough (element : PathElement) : Binding where
  types := [.select]
  projection := some (.path [element, .column "owner"])
  projectionType := .acl
  clause := none
  scope := Binding.everyone

def parcels : Table :=
  let bare := Table.fresh "depot" "parcels" .table
  { bare with
    columns := [.stored bare.path "state" 0 .text none,
      .stored bare.path "owner" 1 .text none] }

def depot : Model :=
  { Model.fresh "_ermrest" with
    schemas := .ofList [("depot",
      { Schema.fresh "depot" with tables := .ofList [("parcels", parcels)] })] }

theorem compileBinding_structural_iff_parcels :
    let b := ownerThrough (.filter "state" (.str "open") none)
    b.validate .table = .ok () ∧ (∃ sql, compileBinding depot ∅ parcels none b = .ok sql) ∧
      ∀ m roles t alias? e, compileBinding m roles t alias? b = .error e → ¬Structural e := by
  intro b
  have hstored : b.validate .table = .ok () := rfl
  have hcompiles : ∃ sql, compileBinding depot ∅ parcels none b = .ok sql := ⟨_, rfl⟩
  obtain ⟨hnever, hsound, -⟩ := compileBinding_structural_iff hstored
  obtain ⟨sql, hsql⟩ := hcompiles
  exact ⟨hstored, ⟨sql, hsql⟩, hnever.2 (hsound _ _ _ _ sql hsql)⟩

/-- Steps that are not sound, and what is wrong with them. -/
def unsoundSteps : List (PathElement × Error) :=
  [(.column "state", .columnInsidePath "state"),
    (.filter "state" (.str "open") (some "::like::"), .unsupportedOperator "::like::"),
    (.filter "state" (.int 1) (some "::regexp::"), .patternNotText)]

/-- Bindings with such steps are stored, and fail for their structure. -/
theorem unsound_stored :
    depot.table? parcels.path = some parcels ∧
      ∀ x ∈ unsoundSteps, (ownerThrough x.1).validate .table = .ok () ∧
        compileBinding depot ∅ parcels none (ownerThrough x.1) = .error x.2 ∧
        x.2.kind = .badData ∧ Structural x.2 := by
  refine ⟨Model.table?_eq_some_iff.2
    ⟨_, SortedMap.get?_ofList_single .., SortedMap.get?_ofList_single ..⟩, ?_⟩
  intro x hx
  simp only [unsoundSteps, List.mem_cons, List.not_mem_nil, or_false] at hx
  rcases hx with rfl | rfl | rfl
  all_goals exact ⟨rfl, rfl, rfl, trivial⟩

end Guard

end GovernedCatalog
