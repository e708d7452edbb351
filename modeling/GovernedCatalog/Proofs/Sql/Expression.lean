import GovernedCatalog.Guard.Binding
import GovernedCatalog.Proofs.Fallible
import GovernedCatalog.Proofs.Sql.Query
import GovernedCatalog.Proofs.Sql.Token

/-!
# Expressions between parentheses

An expression with a level to spare is still one expression between
parentheses: its operands and operators are read as before, up to the closing
parenthesis.
-/

namespace GovernedCatalog.Sql

variable {tail : List Token} {bound depth : Nat}

theorem Inside.within_tracks
    {operandAt operandAt' : Nat → (List Token → Nat) → Nat → Recogniser}
    {queryAt queryAt' : Nat → Recogniser} [Recogniser.Stops tail]
    (hoperand : ∀ {depth} levels {next}, Recogniser.Binds tail next →
      ∀ precedence, Recogniser.Tracks tail bound depth depth
        (operandAt levels next precedence) (operandAt' levels next precedence))
    (hquery : ∀ {depth} levels, Recogniser.Tracks tail bound depth depth
      (queryAt levels) (queryAt' levels)) (levels : Nat) :
    Inside.Tracks tail bound (Inside.within operandAt queryAt levels)
      (Inside.within operandAt' queryAt' levels) where
  expression := by
    cases levels with
    | zero => exact .fail
    | succ levels => exact hoperand levels Recogniser.nextPrecedence_binds 0
  operand := hoperand levels Recogniser.nextPrecedence_binds
  comparison := hoperand levels Recogniser.comparisonPrecedence_binds 0
  query := by
    cases levels with
    | zero => exact .fail
    | succ levels => exact hquery levels

namespace Recogniser

variable [hstops : Stops tail]

/-- Steps to spare change nothing: operands and queries of fewer tokens than
both runs have steps are read alike. -/
theorem operandFor_tracks {steps steps' : Nat} (hsteps : bound ≤ steps)
    (hsteps' : bound ≤ steps') :
    (∀ {depth} levels {next}, Binds tail next → ∀ precedence,
      Tracks tail bound depth depth (operandFor steps levels next precedence)
        (operandFor steps' levels next precedence)) ∧
      ∀ {depth} levels, Tracks tail bound depth depth (queryFor steps levels)
        (queryFor steps' levels) := by
  induction bound generalizing steps steps' with
  | zero => exact ⟨fun _ _ _ _ => .zero, fun _ => .zero⟩
  | succ bound ih =>
    obtain ⟨steps, rfl⟩ : ∃ s, steps = s + 1 := ⟨steps - 1, by omega⟩
    obtain ⟨steps', rfl⟩ : ∃ s, steps' = s + 1 := ⟨steps' - 1, by omega⟩
    have hinside (levels : Nat) : Inside.Tracks tail (bound + 1 - 1)
        (.within (operandFor steps) (queryFor steps) levels)
        (.within (operandFor steps') (queryFor steps') levels) :=
      have h := ih (Nat.le_of_succ_le_succ hsteps)
        (Nat.le_of_succ_le_succ hsteps')
      Inside.within_tracks h.1 h.2 levels
    constructor
    · intro depth levels next hnext precedence
      have hfirst : Advances tail (bound + 1) depth depth _ _ :=
        firstOperand_advances (hinside levels)
      exact (hfirst.andThen
        (operators_tracks (hinside levels) hnext precedence)).toTracks
    · exact fun levels => fullQuery_tracks (hinside levels)

variable (tail) in
/-- An expression that takes up all tokens ends where they end, also with a
closing parenthesis behind them. -/
theorem expression_within {tokens : List Token} {levels steps : Nat}
    (henclosed : Encloses 0 tokens) (hread : expression levels tokens = some [])
    (hsteps : tokens.length < steps) :
    (Inside.within (operandFor steps) (queryFor steps) levels).expression
      (tokens ++ tail) = some tail := by
  have hinside : Inside.Tracks tail (tokens.length + 1)
      (.within (operandFor (tokens.length + 1)) (queryFor (tokens.length + 1))
        levels)
      (.within (operandFor steps) (queryFor steps) levels) :=
    have h := operandFor_tracks (Nat.le_refl _) hsteps
    Inside.within_tracks h.1 h.2 levels
  have hsame := hinside.expression.same (Nat.lt_succ_self _) henclosed
  rw [hsame]
  unfold expression at hread
  simp [hread]

theorem group_eq_closing {inside : Inside} {tokens : List Token}
    (hstart : anyKeyword ["SELECT", "WITH"] tokens = none)
    (hread : inside.expression (tokens ++ tail) = some tail) :
    group inside (tokens ++ tail) =
      andThen (mark ")") (following (mark ".") name) tail := by
  have hstart' : anyKeyword ["SELECT", "WITH"] (tokens ++ tail) = none := by
    rw [anyKeyword_append, hstart]
    rfl
  have hlist : expressions inside (tokens ++ tail) = some tail := by
    simp only [expressions, commaList, separated, andThen, hread]
    obtain rfl | ⟨more, rfl⟩ := hstops.eq_nil_or_closing <;> rfl
  simp [group, queryOr, andThen, hstart', hlist]

/-- What stands in parentheses in front of an expression. -/
theorem expression_opening (levels : Nat) (rest : List Token) :
    expression (levels + 1) (.mark "(" :: rest) =
      let inside := Inside.within (operandFor (rest.length + 1))
        (queryFor (rest.length + 1)) levels
      (andThen (group inside) (following (keyword "COLLATE") objectName)
        rest).bind (operators inside nextPrecedence 0) :=
  rfl

/-- An expression with a level to spare is one expression between
parentheses. -/
theorem expression_parenthesised {tokens : List Token} {levels : Nat}
    (henclosed : Encloses 0 tokens)
    (hstart : anyKeyword ["SELECT", "WITH"] tokens = none)
    (hread : expression levels tokens = some []) :
    expression (levels + 1) (.mark "(" :: (tokens ++ [.mark ")"])) =
      some [] := by
  have hsteps : tokens.length < (tokens ++ [Token.mark ")"]).length + 1 := by
    simp only [List.length_append]
    omega
  have hgroup := group_eq_closing hstart
    (expression_within [.mark ")"] henclosed hread hsteps)
  rw [expression_opening]
  simp only [andThen, hgroup]
  rfl

/-- It is no expression behind a parenthesis that is left open. -/
theorem expression_unclosed {tokens : List Token} {levels : Nat}
    (henclosed : Encloses 0 tokens)
    (hstart : anyKeyword ["SELECT", "WITH"] tokens = none)
    (hread : expression levels tokens = some []) :
    expression (levels + 1) (.mark "(" :: tokens) = none := by
  have hgroup := group_eq_closing hstart
    (expression_within [] henclosed hread (Nat.lt_succ_self _))
  rw [List.append_nil] at hgroup
  rw [expression_opening]
  simp only [andThen, hgroup]
  rfl

end Recogniser

end GovernedCatalog.Sql

namespace GovernedCatalog.Sql

/-! ## Raw clauses between parentheses

The text of a raw clause is checked before it is put between parentheses, so
what is embedded into a filter is not the text that was checked. -/

theorem clauseFault?_eq_none {clause : String} :
    clauseFault? clause = none ↔
      ∃ tokens, Token.ofText? clause = some tokens ∧
        Recogniser.expression maxClauseDepth tokens = some [] := by
  unfold clauseFault?
  cases Token.ofText? clause with
  | none => simp
  | some tokens =>
    simp only [Option.some.injEq, exists_eq_left']
    split <;> simp_all

theorem checkClause_eq_ok {clause : String} :
    checkClause clause = .ok () ↔ clauseFault? clause = none := by
  unfold checkClause
  cases clauseFault? clause <;> simp

theorem checkClause_of_tokens {clause : String} {tokens : List Token}
    (htokens : Token.ofText? clause = some tokens) :
    checkClause clause = .ok () ↔
      Recogniser.expression maxClauseDepth tokens = some [] := by
  simp only [checkClause_eq_ok, clauseFault?_eq_none, htokens,
    Option.some.injEq, exists_eq_left']

/-- Tokens of one expression that can stand in parentheses: it leaves a level of
nesting, does not begin as a query, and closes what it opens. -/
structure Wrappable (tokens : List Token) : Prop where
  spare : Recogniser.expression (maxClauseDepth - 1) tokens = some []
  start : Recogniser.anyKeyword ["SELECT", "WITH"] tokens = none
  encloses : Recogniser.Encloses 0 tokens

theorem Wrappable.parenthesised {tokens : List Token} (h : Wrappable tokens) :
    Recogniser.expression maxClauseDepth
      (.mark "(" :: (tokens ++ [.mark ")"])) = some [] :=
  Recogniser.expression_parenthesised h.encloses h.start h.spare

theorem Wrappable.unclosed {tokens : List Token} (h : Wrappable tokens) :
    Recogniser.expression maxClauseDepth (.mark "(" :: tokens) = none :=
  Recogniser.expression_unclosed h.encloses h.start h.spare

end GovernedCatalog.Sql

namespace GovernedCatalog.Guard

variable {m : Model} {roles : Roles} {t : Table} {alias? : Option String}
  {b : Binding} {clause f : String}

/-- A raw clause compiles to its text about the governed row in parentheses, if
that text is one expression. -/
theorem compileBinding_raw (hclause : b.clause = some clause) :
    compileBinding m roles t alias? b = .ok f ↔
      Sql.clauseFault? (substitute clause (rowReference t alias?)) = none ∧
        f = "(" ++ substitute clause (rowReference t alias?) ++ ")" := by
  simp only [compileBinding, hclause]
  constructor
  · intro h
    obtain ⟨⟨⟩, hcheck, hf⟩ := bind_eq_ok.1 h
    exact ⟨Sql.checkClause_eq_ok.1 hcheck, (Except.ok.inj hf).symm⟩
  · rintro ⟨hfault, rfl⟩
    exact bind_eq_ok.2 ⟨⟨⟩, Sql.checkClause_eq_ok.2 hfault, rfl⟩

/-- The binding that applies to everyone on the rows of a raw clause. -/
def rawBinding (clause : String) : Binding :=
  ⟨[.select], none, .acl, some clause, Binding.everyone⟩

/-- A compiled raw clause is one expression again unless it ends in a comment
that runs to the end of its line.  Without such a comment it is a group that
what follows does not change; with it the closing parenthesis is not read. -/
theorem compileBinding_selfContained (hclause : b.clause = some clause)
    (h : compileBinding m roles t alias? b = .ok f) :
    let sql := substitute clause (rowReference t alias?)
    ∃ tokens, Sql.Token.ofText? sql = some tokens ∧
      Sql.Recogniser.expression Sql.maxClauseDepth tokens = some [] ∧
      (Sql.Wrappable tokens → (Sql.checkClause f = .ok () ↔
        ¬Sql.Token.EndsInLineComment sql.toList)) ∧
      (Sql.Token.EndsInLineComment sql.toList →
        Sql.Token.ofText? f = some (.mark "(" :: tokens)) ∧
      (¬Sql.Token.EndsInLineComment sql.toList →
        ∀ after later, Sql.Token.ofText? after = some later →
          Sql.Token.ofText? (f ++ after) =
            some (.mark "(" :: tokens ++ .mark ")" :: later)) := by
  intro sql
  obtain ⟨hfault, rfl⟩ := (compileBinding_raw hclause).1 h
  obtain ⟨tokens, htokens, hexpression⟩ := Sql.clauseFault?_eq_none.1 hfault
  have hunclosed :=
    Sql.Token.ofText?_parenthesised_of_endsInLineComment htokens
  have hclosed (hends : ¬Sql.Token.EndsInLineComment sql.toList)
      (after : String) (later : List Sql.Token)
      (hafter : Sql.Token.ofText? after = some later) :=
    Sql.Token.ofText?_parenthesised htokens hafter hends
  refine ⟨tokens, htokens, hexpression, fun hwrappable => ⟨?_, ?_⟩, hunclosed,
    hclosed⟩
  · intro hcheck hends
    have hread := (Sql.checkClause_of_tokens (hunclosed hends)).1 hcheck
    simp [hwrappable.unclosed] at hread
  · intro hends
    have hwhole := hclosed hends "" [] rfl
    rw [String.append_empty] at hwhole
    exact (Sql.checkClause_of_tokens hwhole).2 hwrappable.parenthesised

theorem compileBinding_unclosed :
    compileBinding (.fresh "_ermrest") {} (.fresh "public" "person" .table) none
        (rawBinding "true -- all rows") = .ok "(true -- all rows)" ∧
      Sql.checkClause "(true -- all rows)" ≠ .ok () := by
  constructor
  · exact (compileBinding_raw rfl).2 (by decide +kernel)
  · rw [ne_eq, Sql.checkClause_eq_ok]
    decide +kernel

theorem compileBinding_selfContained_person :
    let t : Table := .fresh "public" "person" .table
    compileBinding (.fresh "_ermrest") {} t none (rawBinding "true") =
        .ok "(true)" ∧
      ¬Sql.Token.EndsInLineComment "true".toList ∧
      Sql.checkClause "(true)" = .ok () := by
  intro t
  have hraw : compileBinding (.fresh "_ermrest") {} t none (rawBinding "true") =
      .ok "(true)" := (compileBinding_raw rfl).2 (by decide +kernel)
  have hsql : substitute "true" (rowReference t none) = "true" := by
    decide +kernel
  have hread : Sql.Token.read? "true".toList = some (some (.word "true"), []) := by
    decide +kernel
  have hends : ¬Sql.Token.EndsInLineComment "true".toList := by
    intro hends
    cases hends with
    | step hread' hends =>
      obtain ⟨-, rfl⟩ := Prod.mk.inj (Option.some.inj (hread.symm.trans hread'))
      exact Sql.Token.not_endsInLineComment_nil hends
  obtain ⟨tokens, htokens, -, hcheck, -⟩ := compileBinding_selfContained rfl hraw
  rw [hsql] at htokens hcheck
  have hword : Sql.Token.ofText? "true" = some [.word "true"] := by
    decide +kernel
  obtain rfl := Option.some.inj (hword.symm.trans htokens)
  have hwrappable : Sql.Wrappable [.word "true"] :=
    ⟨by decide +kernel, by decide +kernel, by decide +kernel, by decide +kernel⟩
  exact ⟨hraw, hends, (hcheck hwrappable).2 hends⟩

end GovernedCatalog.Guard
