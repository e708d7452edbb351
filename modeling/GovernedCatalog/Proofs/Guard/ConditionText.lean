import GovernedCatalog.Guard.Binding
import GovernedCatalog.Proofs.ColumnType.Spelling
import GovernedCatalog.Proofs.Guard.Steps
import GovernedCatalog.Proofs.Sql.Selection

/-!
# Texts of conditions

Whatever names, texts and roles a condition is about, its text is one condition
in SQL, and the text of a path's condition is one operand.
-/

namespace GovernedCatalog.Guard

open Sql Sql.Token Sql.Recogniser

/-! ## Rows and fields -/

/-- The text is a name or a qualified one. -/
def IsRow (outer : String) : Prop :=
  ∃ first more, Spells (· ≠ '"') outer (dotted first more)

theorem isRow_identifier (name : String) : IsRow (identifier name) :=
  ⟨name, [], spells_identifier name⟩

theorem isRow_qualified (schema name : String) : IsRow (qualified schema name) :=
  ⟨schema, [name], spells_qualified schema name⟩

theorem isRow_rowReference (t : Table) (alias? : Option String) :
    IsRow (rowReference t alias?) := by
  unfold rowReference
  split
  · split
    · exact isRow_qualified _ _
    · exact isRow_identifier _
  · exact isRow_qualified _ _

theorem IsRow.sql {outer : String} (h : IsRow outer) (row : RowName) :
    IsRow (row.sql outer) := by
  cases row with
  | governed => exact h
  | joined index => exact isRow_identifier _

/-- The tokens of a column of a row. -/
def IsField (tokens : List Token) : Prop :=
  ∃ first second more, tokens = dotted first (second :: more)

theorem IsField.isOperand {tokens : List Token} (h : IsField tokens) :
    IsOperand 0 tightPrecedence tokens := by
  obtain ⟨first, second, more, rfl⟩ := h
  exact dotted_isOperand _ _

theorem IsField.opening {tokens : List Token} (h : IsField tokens) :
    Opening tokens := by
  obtain ⟨first, second, more, rfl⟩ := h
  exact .field first _

theorem Field.spells {outer : String} (h : IsRow outer) (f : Field) :
    ∃ tokens, Spells (· ≠ '"') (f.sql outer) tokens ∧ IsField tokens := by
  obtain ⟨first, more, hrow⟩ := h.sql f.row
  have hpoint := hrow.append (spells_point.append (spells_identifier f.column)
    fun _ => by simp [toList_identifier]) fun _ => by simp
  rw [← String.append_assoc] at hpoint
  refine ⟨_, hpoint, ?_⟩
  cases more with
  | nil => exact ⟨first, f.column, [], rfl⟩
  | cons second more =>
      exact ⟨first, second, more ++ [f.column], by simp [dotted, points]⟩

theorem Field.writes {outer : String} (h : IsRow outer) (f : Field) :
    Writes IsField (f.sql outer) := by
  obtain ⟨tokens, hspells, hfield⟩ := f.spells h
  exact ⟨tokens, hspells.of_quote (by decide), hfield⟩

/-! ## Conditions -/

/-- The constants of a condition. -/
def Condition.constants : Condition → List String
  | compare _ _ constant => [constant]
  | _ => []

/-- The tokens are a condition that logical connectives can stand beside. -/
structure IsCondition (tokens : List Token) : Prop where
  opening : Opening tokens
  phrase : ∀ lower ≤ andPrecedence, IsPhrase 1 lower andPrecedence tokens

/-- An operator that takes an operand and binds tighter than the connectives. -/
structure Relates (spelling : String) : Prop where
  takes : TakesOperand (.mark spelling) (comparisons.contains spelling)
  binds : andPrecedence < nextPrecedence [.mark spelling]
  loose : nextPrecedence [.mark spelling] ≤ tightPrecedence

theorem relates_of_mem {spelling : String}
    (h : spelling ∈ ["=", "<", "<=", ">", ">=", "~", "~*", "&&"]) :
    Relates spelling := by
  have hchecks : ∀ spelling ∈ ["=", "<", "<=", ">", ">=", "~", "~*", "&&"],
      (.mark spelling ∈ followers ∧
        spelling ∉ ["::", "!", "[", ":"] ++ arrows) ∧
      andPrecedence < nextPrecedence [.mark spelling] ∧
        nextPrecedence [.mark spelling] ≤ tightPrecedence := by
    decide +kernel
  obtain ⟨⟨hmem, hother⟩, hbinds, hloose⟩ := hchecks spelling h
  refine ⟨⟨hmem, fun inside precedence rest => ?_⟩, hbinds, hloose⟩
  simp only [List.mem_append, List.mem_cons, List.not_mem_nil, or_false,
    not_or] at hother
  simp [operatorPart, hother]

theorem Comparison.relates (comparison : Comparison) :
    Relates comparison.sql := by
  apply relates_of_mem
  cases comparison <;> simp [sql]

theorem follower_le_tight : ∀ t ∈ followers,
    nextPrecedence [t] ≤ tightPrecedence := by decide +kernel

/-- A condition with an operator that binds tighter than the connectives. -/
theorem isCondition_operator {tokens taken : List Token} {op : Token}
    {upper : Nat} (hopening : Opening tokens)
    (h : ∀ lower ≤ andPrecedence, IsPhrase 1 lower tightPrecedence tokens)
    (hop : op ∈ followers) (hlower : andPrecedence < nextPrecedence [op])
    (htaken : IsPart 1 upper op taken) (hupper : andPrecedence ≤ upper) :
    IsCondition (tokens ++ op :: taken) where
  opening := hopening.append _
  phrase lower hle := by
    have hphrase := (h lower hle).operator hop (Nat.lt_of_le_of_lt hle hlower)
      (follower_le_tight op hop) htaken
    exact hphrase.mono (Nat.le_refl _) hupper

theorem IsField.phrase {tokens : List Token} (h : IsField tokens) (lower : Nat) :
    IsPhrase 1 lower tightPrecedence tokens :=
  (h.isOperand.phrase lower).mono (Nat.zero_le _) (Nat.le_refl _)

/-- A comparison of a field. -/
theorem IsField.compares {tokens right : List Token} (h : IsField tokens)
    {spelling : String} (hrelates : Relates spelling)
    (hprecedence : nextPrecedence [.mark spelling] = betweenPrecedence)
    (hright : IsPhrase 1 betweenPrecedence timesPrecedence right) :
    IsCondition (tokens ++ .mark spelling :: right) := by
  rw [← hprecedence] at hright
  have hpart := hright.part hrelates.takes
  rw [hprecedence] at hpart
  exact isCondition_operator h.opening (fun lower _ => h.phrase lower)
    hrelates.takes.mem hrelates.binds hpart (by decide)

/-- A field as a text that is compared with a pattern. -/
theorem IsField.fits {tokens : List Token} (h : IsField tokens)
    {spelling : String} (hrelates : Relates spelling) (pattern : String) :
    IsCondition (tokens ++ .mark "::" :: .word "text" :: .mark spelling ::
      [.text pattern]) := by
  have htype : IsType [.word "text"] := isType_of_typeName (by decide +kernel)
  have hright := (text_isOperand pattern).phrase (nextPrecedence [.mark spelling])
  have hpart := (hright.mono (Nat.zero_le 1) (Nat.le_refl _)).part
    hrelates.takes
  have hcast (lower : Nat) (hlower : lower ≤ andPrecedence) :=
    (h.phrase lower).cast (Nat.lt_of_le_of_lt hlower (by decide)) htype
  have hcondition := isCondition_operator (h.opening.append _) hcast
    hrelates.takes.mem hrelates.binds hpart
    (le_min hrelates.binds.le (by decide))
  rwa [List.append_assoc] at hcondition

theorem Comparison.separates (comparison : Comparison) :
    Separates (" " ++ comparison.sql ++ " ") [.mark comparison.sql] := by
  cases comparison with
  | equal => exact separates_spaced " =" (by decide +kernel)
  | less => exact separates_spaced " <" (by decide +kernel)
  | lessOrEqual => exact separates_spaced " <=" (by decide +kernel)
  | greater => exact separates_spaced " >" (by decide +kernel)
  | greaterOrEqual => exact separates_spaced " >=" (by decide +kernel)

/-- Any roles are written as an array of texts. -/
theorem rolesSql_writes (roles : Roles) :
    Writes IsTypedArray (rolesSql roles) := by
  have hroles : ∀ constant ∈ roles.elems.map literal,
      Writes (IsConstant 0) constant := by
    intro constant hconstant
    obtain ⟨role, -, rfl⟩ := List.mem_map.1 hconstant
    exact ⟨_, whole_literal role, fun lower _ =>
      ((text_isOperand role).phrase lower).mono (Nat.le_refl _) (by decide)⟩
  have hwrites := typedArray_writes hroles text_namesType.array_writes
  rwa [String.append_assoc] at hwrites

section Texts

variable {outer : String} (houter : IsRow outer)

include houter

theorem join_writes (left right : Field) :
    Writes IsCondition ((Condition.join left right).sql outer) := by
  obtain ⟨tokens, hleft, hfield⟩ := left.writes houter
  obtain ⟨tokens', hright, hfield'⟩ := right.writes houter
  refine ⟨_, hleft.separated Comparison.equal.separates hright, ?_⟩
  rw [List.append_assoc]
  exact hfield.compares Comparison.equal.relates (by decide +kernel)
    ((hfield'.phrase _).mono (Nat.le_refl _) (by decide))

theorem compare_writes (f : Field) (comparison : Comparison) {constant : String}
    (hconstant : Writes (IsConstant 1) constant) :
    Writes IsCondition
      ((Condition.compare f comparison constant).sql outer) := by
  obtain ⟨tokens, hf, hfield⟩ := f.writes houter
  obtain ⟨tokens', hspells', hconstant⟩ := hconstant
  have hsql : (Condition.compare f comparison constant).sql outer =
      f.sql outer ++ (" " ++ comparison.sql ++ " ") ++ constant := by
    simp [Condition.sql, String.append_assoc]
  rw [hsql]
  refine ⟨_, hf.separated comparison.separates hspells', ?_⟩
  rw [List.append_assoc]
  have hprecedence : nextPrecedence [.mark comparison.sql] =
      betweenPrecedence := by
    cases comparison <;> decide +kernel
  exact hfield.compares comparison.relates hprecedence
    (hconstant betweenPrecedence (by decide))

theorem isNull_writes (f : Field) :
    Writes IsCondition ((Condition.isNull f).sql outer) := by
  obtain ⟨tokens, hf, hfield⟩ := f.writes houter
  have hspells : SpellsWhole (f.sql outer ++ " IS NULL")
      (tokens ++ [.word "IS", .word "NULL"]) :=
    hf.ended (by decide +kernel)
  refine ⟨_, hspells, hfield.opening.append _, fun lower hlower => ?_⟩
  have hisNull := (hfield.phrase lower).isNull
    (Nat.lt_of_le_of_lt hlower (by decide)) (by decide)
  exact hisNull.mono (Nat.le_refl _) (by decide)

theorem isNotNull_writes (f : Field) :
    Writes IsCondition ((Condition.isNotNull f).sql outer) := by
  obtain ⟨tokens, hf, hfield⟩ := f.writes houter
  have hspells : SpellsWhole (f.sql outer ++ " IS NOT NULL")
      (tokens ++ [.word "IS", .word "NOT", .word "NULL"]) :=
    hf.ended (by decide +kernel)
  refine ⟨_, hspells, hfield.opening.append _, fun lower hlower => ?_⟩
  have hisNotNull := (hfield.phrase lower).isNotNull
    (Nat.lt_of_le_of_lt hlower (by decide)) (by decide)
  exact hisNotNull.mono (Nat.le_refl _) (by decide)

theorem fits_writes (f : Field) (caseSensitive : Bool) (pattern : String) :
    Writes IsCondition ((Condition.fits f caseSensitive pattern).sql outer) := by
  obtain ⟨tokens, hf, hfield⟩ := f.spells houter
  have hspells {front : String} {tokens' : List Token}
      (h : SpellsAlways ("::text " ++ front ++ " ") tokens') :
      SpellsWhole (f.sql outer ++ "::text " ++ front ++ " " ++ literal pattern)
        (tokens ++ (tokens' ++ [.text pattern])) := by
    have hall := hf.append (h.then_ (whole_literal pattern)) fun _ => by simp
    simpa only [String.append_assoc] using hall
  cases caseSensitive with
  | true =>
      have hmark : SpellsAlways "::text ~ "
          [.mark "::", .word "text", .mark "~"] :=
        spells_spaced "::text ~" (by decide +kernel)
      have hrelates : Relates "~" := relates_of_mem (by simp)
      exact ⟨_, hspells hmark, hfield.fits hrelates pattern⟩
  | false =>
      have hmark : SpellsAlways "::text ~* "
          [.mark "::", .word "text", .mark "~*"] :=
        spells_spaced "::text ~*" (by decide +kernel)
      have hrelates : Relates "~*" := relates_of_mem (by simp)
      exact ⟨_, hspells hmark, hfield.fits hrelates pattern⟩

theorem isRole_writes (f : Field) (roles : Roles) :
    Writes IsCondition ((Condition.isRole f roles).sql outer) := by
  obtain ⟨tokens, hf, hfield⟩ := f.writes houter
  obtain ⟨tokens', hroles, harray⟩ := rolesSql_writes roles
  have hfront : SpellsWhole " = ANY" [.mark "=", .word "ANY"] :=
    .of_readsAs (by decide +kernel)
  have hany : Separates " = ANY(" [.mark "=", .word "ANY", .mark "("] :=
    ⟨by decide +kernel, hfront.closed '(' (by decide)⟩
  have hspells := hf.separated hany (hroles.closed ')' (by decide))
  rw [← String.append_assoc] at hspells
  refine ⟨_, hspells.whole, ?_⟩
  have hequal : Relates "=" := relates_of_mem (by simp)
  have hpart := any_part hequal.takes (harray.constant _ (by decide))
  rw [List.append_assoc]
  exact isCondition_operator hfield.opening (fun lower _ => hfield.phrase lower)
    hequal.takes.mem hequal.binds hpart (by decide)

theorem hasRole_writes (f : Field) (roles : Roles) :
    Writes IsCondition ((Condition.hasRole f roles).sql outer) := by
  obtain ⟨tokens, hf, hfield⟩ := f.writes houter
  obtain ⟨tokens', hroles, array, type, rfl, harray, htype⟩ :=
    rolesSql_writes roles
  have hand : Separates " && " [.mark "&&"] :=
    separates_spaced " &&" (by decide +kernel)
  have hoverlaps : Relates "&&" := relates_of_mem (by simp)
  refine ⟨_, hf.separated hand hroles, (hfield.opening.append _).append _,
    fun lower hlower => ?_⟩
  have hpart :=
    (harray.phrase (nextPrecedence [.mark "&&"])).part hoverlaps.takes
  have hphrase := (hfield.phrase lower).operator hoverlaps.takes.mem
    (Nat.lt_of_le_of_lt hlower hoverlaps.binds) hoverlaps.loose hpart
  have hcast := hphrase.cast (Nat.lt_of_le_of_lt hlower (by decide)) htype
  simpa using hcast.mono (Nat.le_refl _) (by decide)

theorem Condition.writes (c : Condition)
    (hconstants : ∀ constant ∈ c.constants, Writes (IsConstant 1) constant) :
    Writes IsCondition (c.sql outer) := by
  cases c with
  | join left right => exact join_writes houter left right
  | compare f comparison constant =>
      exact compare_writes houter f comparison
        (hconstants constant (by simp [constants]))
  | isNull f => exact isNull_writes houter f
  | isNotNull f => exact isNotNull_writes houter f
  | fits f caseSensitive pattern =>
      exact fits_writes houter f caseSensitive pattern
  | isRole f roles => exact isRole_writes houter f roles
  | hasRole f roles => exact hasRole_writes houter f roles

end Texts

/-! ## Conditions of paths -/

/-- The tokens are an expression in parentheses that can be negated. -/
def IsGroup (depth : Nat) (tokens : List Token) : Prop :=
  ∃ inner, tokens = .mark "(" :: (inner ++ [.mark ")"]) ∧ Opening inner ∧
    IsExpression depth inner

theorem IsGroup.isOperand {depth : Nat} {tokens : List Token}
    (h : IsGroup depth tokens) : IsOperand depth tightPrecedence tokens := by
  obtain ⟨inner, rfl, -, hinner⟩ := h
  exact group_isOperand hinner

theorem separates_and : Separates " AND " [.word "AND"] :=
  separates_spaced " AND" (by decide +kernel)

/-- All of some conditions. -/
theorem conditions_write {outer : String} (houter : IsRow outer)
    {conditions : List Condition} (hne : conditions ≠ [])
    (hconstants : ∀ c ∈ conditions, ∀ constant ∈ c.constants,
      Writes (IsConstant 1) constant) :
    Writes (fun tokens => Opening tokens ∧ IsExpression 2 tokens)
      (Text.join " AND " (conditions.map (Condition.sql outer))) := by
  have htexts : ∀ sql ∈ conditions.map (Condition.sql outer),
      Writes IsCondition sql := by
    intro sql hsql
    obtain ⟨c, hc, rfl⟩ := List.mem_map.1 hsql
    exact c.writes houter (hconstants c hc)
  obtain ⟨_, hspells, tokens, rfl, hne', hconditions⟩ :=
    Writes.join separates_and htexts
  replace hne' := hne' (by simpa using hne)
  have hphrase : IsPhrase 1 0 andPrecedence (joined [.word "AND"] tokens) :=
    isPhrase_joined hne' and_takesOperand (by decide) fun ts hts lower hlower =>
      (hconditions ts hts).phrase lower hlower
  refine ⟨_, hspells, ?_, hphrase.expression⟩
  obtain ⟨first, tokens, rfl⟩ := List.exists_cons_of_ne_nil hne'
  rw [joined_cons]
  exact (hconditions first List.mem_cons_self).opening.append _

theorem sources_write (first : Nat) (tables : List TablePath) :
    ∀ sql ∈ PathCondition.sources first tables, Writes IsSource sql := by
  induction tables generalizing first with
  | nil => simp [PathCondition.sources]
  | cons table tables ih =>
      have has : Separates " AS " [.word "AS"] :=
        separates_spaced " AS" (by decide +kernel)
      have htable := (spells_qualified table.schema table.table).of_quote
        (by decide)
      have hsource :=
        htable.separated has (whole_identifier ("_dyn" ++ toString first))
      exact List.forall_mem_cons.2
        ⟨⟨_, hsource, _, _, _, rfl⟩, ih (first + 1)⟩

theorem sources_ne_nil (first : Nat) {tables : List TablePath}
    (h : tables ≠ []) : PathCondition.sources first tables ≠ [] := by
  cases tables with
  | nil => exact absurd rfl h
  | cons table tables => simp [PathCondition.sources]

theorem PathCondition.writes {outer : String} (houter : IsRow outer)
    (p : PathCondition) (hne : p.conditions ≠ [])
    (hconstants : ∀ c ∈ p.conditions, ∀ constant ∈ c.constants,
      Writes (IsConstant 1) constant) :
    Writes (IsGroup 4) (p.sql outer) := by
  obtain ⟨tokens, hspells, hopening, hexpression⟩ :=
    conditions_write houter hne hconstants
  have hclosed := hspells.closed ')' (by decide)
  unfold PathCondition.sql
  dsimp only
  split
  · have hopen := spells_delimiter '(' (by decide)
    have hgroup := (hopen.then_ hclosed).whole
    rw [← String.append_assoc] at hgroup
    exact ⟨_, hgroup, tokens, rfl, hopening,
      hexpression.mono (by decide)⟩
  · next hjoined =>
    obtain ⟨_, htables, sources, rfl, hne', hsource⟩ :=
      Writes.join separates_comma (sources_write 1 p.joined)
    replace hne' := hne' (sources_ne_nil 1 (by simpa using hjoined))
    have hopen : SpellsAlways "(EXISTS (SELECT 1 FROM "
        [.mark "(", .word "EXISTS", .mark "(", .word "SELECT",
          .number "1" false, .word "FROM"] :=
      spells_spaced "(EXISTS (SELECT 1 FROM" (by decide +kernel)
    have hwhere : Separates " WHERE " [.word "WHERE"] :=
      separates_spaced " WHERE" (by decide +kernel)
    have hend : SpellsAlways "))" [.mark ")", .mark ")"] :=
      (spells_delimiter ')' (by decide)).then_
        (spells_delimiter ')' (by decide))
    have hall := ((hopen.then_ htables).separated hwhere hspells).before hend
      (by decide +kernel)
    have hexists := exists_isOperand hne' hsource hexpression
    exact ⟨_, hall.whole, _, by simp [selectionOf], .selection _,
      (hexists.phrase 0).expression⟩

end GovernedCatalog.Guard
