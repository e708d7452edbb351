import Mathlib.Order.Basic
import GovernedCatalog.Proofs.Sql.Spelling
import GovernedCatalog.Proofs.Sql.TypeFollower
import GovernedCatalog.Sql.Expression

/-!
# Expressions from their parts

Tokens are a part of an expression if they are read as this part before
everything that can stand behind it.  So operators make phrases from operands,
and phrases in parentheses are operands again.
-/

namespace GovernedCatalog.Sql

/-- What stands inside of an operand. -/
abbrev Inside.full (steps levels : Nat) : Inside :=
  .within (Recogniser.operandFor steps) (Recogniser.queryFor steps) levels

namespace Recogniser

theorem nextPrecedence_of_follower {t : Token} (ht : t ∈ followers)
    (rest : List Token) : nextPrecedence (t :: rest) = nextPrecedence [t] := by
  simp only [followers, List.mem_cons, List.not_mem_nil, or_false] at ht
  rcases ht with rfl | rfl | rfl | rfl | rfl | rfl | rfl | rfl | rfl | rfl |
    rfl | rfl | rfl | rfl | rfl | rfl | rfl | rfl | rfl <;> rfl

/-- What can stand behind a part that takes the operators above a
precedence. -/
structure Ends (precedence : Nat) (tail : List Token) : Prop where
  follows : Follows tail
  loose : nextPrecedence tail ≤ precedence

theorem ends_nil (precedence : Nat) : Ends precedence [] :=
  ⟨headIn_nil _, Nat.zero_le _⟩

theorem ends_cons {precedence : Nat} {t : Token} {rest : List Token}
    (ht : t ∈ followers) (hloose : nextPrecedence [t] ≤ precedence) :
    Ends precedence (t :: rest) :=
  ⟨headIn_cons.2 ht, (nextPrecedence_of_follower ht rest).symm ▸ hloose⟩

theorem Ends.mono {lower upper : Nat} {tail : List Token} (h : Ends lower tail)
    (hle : lower ≤ upper) : Ends upper tail :=
  ⟨h.follows, Nat.le_trans h.loose hle⟩

/-- The tokens begin with one that begins neither a query nor a comparison with
the elements of an array, and ends no list. -/
def Starts (tokens : List Token) : Prop :=
  ∃ t rest, tokens = t :: rest ∧
    isKeyword ["ANY", "ALL", "SELECT", "WITH"] t = false ∧ t ≠ .mark "]"

theorem Starts.append {tokens : List Token} (h : Starts tokens)
    (more : List Token) : Starts (tokens ++ more) := by
  obtain ⟨t, rest, rfl, ht⟩ := h
  exact ⟨t, rest ++ more, rfl, ht⟩

theorem isKeyword_subset {names names' : List String} (hsub : names ⊆ names')
    {t : Token} (h : isKeyword names' t = false) : isKeyword names t = false := by
  unfold isKeyword at h ⊢
  cases hk : keywordOf t with
  | none => rfl
  | some k =>
      simp only [hk, List.contains_eq_mem, decide_eq_false_iff_not] at h ⊢
      exact fun hmem => h (hsub hmem)

theorem Starts.anyKeyword_eq_none {tokens : List Token} (h : Starts tokens)
    {names : List String} (hsub : names ⊆ ["ANY", "ALL", "SELECT", "WITH"]) :
    anyKeyword names tokens = none := by
  obtain ⟨t, rest, rfl, ht, -⟩ := h
  simp [anyKeyword, isKeyword_subset hsub ht]

theorem Starts.closing_eq_none {tokens : List Token} (h : Starts tokens) :
    mark "]" tokens = none := by
  obtain ⟨t, rest, rfl, -, ht⟩ := h
  simp [mark, ht]

/-- The beginning of an expression up to its first operator, with so many levels
inside.  What stands behind it does not bind tighter than `upper`. -/
structure IsOperand (depth upper : Nat) (tokens : List Token) : Prop where
  starts : Starts tokens
  reads : ∀ {levels steps tail}, depth ≤ levels → tokens.length ≤ steps →
    Ends upper tail →
      firstOperand (.full steps levels) (tokens ++ tail) = some tail

/-- An operand and operators that bind tighter than `lower`. -/
structure IsPhrase (depth lower upper : Nat) (tokens : List Token) : Prop where
  starts : Starts tokens
  reads : ∀ {levels steps tail}, depth ≤ levels → tokens.length ≤ steps →
    Ends upper tail → ∃ fuel : List Token, tail.length ≤ fuel.length ∧
      operandFor (steps + 1) levels nextPrecedence lower (tokens ++ tail) =
        operatorsFor (.full steps levels) nextPrecedence lower fuel tail

/-- An expression with so many levels, its own among them. -/
structure IsExpression (depth : Nat) (tokens : List Token) : Prop where
  starts : Starts tokens
  reads : ∀ {levels steps tail}, depth ≤ levels → tokens.length < steps →
    Ends 0 tail →
      (Inside.full steps levels).expression (tokens ++ tail) = some tail

/-- What an operator takes on its right. -/
def IsPart (depth upper : Nat) (op : Token) (taken : List Token) : Prop :=
  ∀ ⦃levels steps tail⦄, depth ≤ levels → taken.length < steps →
    Ends upper tail →
      operatorPart (.full steps levels) (nextPrecedence [op])
        (op :: (taken ++ tail)) = some tail

/-- An operator between two operands, which may compare with the elements of an
array. -/
structure TakesOperand (op : Token) (compares : Bool) : Prop where
  mem : op ∈ followers
  part : ∀ inside precedence rest, operatorPart inside precedence (op :: rest) =
    rightOperand inside precedence compares rest

theorem and_takesOperand : TakesOperand (.word "AND") false :=
  ⟨by decide, fun _ _ _ => rfl⟩

theorem or_takesOperand : TakesOperand (.word "OR") false :=
  ⟨by decide, fun _ _ _ => rfl⟩

variable {depth depth' lower upper upper' : Nat} {tokens taken : List Token}
  {op : Token} {compares : Bool}

theorem IsOperand.mono (h : IsOperand depth upper tokens)
    (hdepth : depth ≤ depth') (hupper : upper' ≤ upper) :
    IsOperand depth' upper' tokens :=
  ⟨h.starts, fun hlevels hsteps htail =>
    h.reads (Nat.le_trans hdepth hlevels) hsteps (htail.mono hupper)⟩

theorem IsPhrase.mono (h : IsPhrase depth lower upper tokens)
    (hdepth : depth ≤ depth') (hupper : upper' ≤ upper) :
    IsPhrase depth' lower upper' tokens :=
  ⟨h.starts, fun hlevels hsteps htail =>
    h.reads (Nat.le_trans hdepth hlevels) hsteps (htail.mono hupper)⟩

theorem IsExpression.mono (h : IsExpression depth tokens)
    (hdepth : depth ≤ depth') : IsExpression depth' tokens :=
  ⟨h.starts, fun hlevels => h.reads (Nat.le_trans hdepth hlevels)⟩

theorem IsOperand.phrase (h : IsOperand depth upper tokens) (lower : Nat) :
    IsPhrase depth lower upper tokens where
  starts := h.starts
  reads {levels steps tail} hlevels hsteps htail := by
    have hread := h.reads hlevels hsteps htail
    refine ⟨tail, Nat.le_refl _, ?_⟩
    change (firstOperand (.full steps levels) (tokens ++ tail)).bind
      (operators (.full steps levels) nextPrecedence lower) = _
    rw [hread]
    rfl

namespace IsPhrase

/-- An operator that binds tighter and what it takes. -/
theorem operator (h : IsPhrase depth lower upper tokens) (hop : op ∈ followers)
    (hlower : lower < nextPrecedence [op]) (hupper : nextPrecedence [op] ≤ upper)
    (htaken : IsPart depth upper' op taken) :
    IsPhrase depth lower upper' (tokens ++ op :: taken) where
  starts := h.starts.append _
  reads {levels steps tail} hlevels hsteps htail := by
    simp only [List.length_append, List.length_cons] at hsteps
    have hends : Ends upper (op :: (taken ++ tail)) := ends_cons hop hupper
    obtain ⟨fuel, hfuel, hread⟩ :=
      h.reads hlevels (by omega : tokens.length ≤ steps) hends
    have hnext := nextPrecedence_of_follower hop (taken ++ tail)
    obtain ⟨step, fuel, rfl⟩ :=
      List.exists_cons_of_length_pos (Nat.lt_of_lt_of_le (by simp) hfuel)
    simp only [List.length_append, List.length_cons] at hfuel
    refine ⟨fuel, by omega, ?_⟩
    rw [List.append_assoc, List.cons_append, hread]
    simp only [operatorsFor, hnext, Nat.not_le.2 hlower, if_false,
      htaken hlevels (by omega : taken.length < steps) htail, Option.bind_some]

/-- A phrase is read up to an operator that does not bind tighter. -/
theorem operandFor_eq (h : IsPhrase depth lower upper tokens)
    {levels steps : Nat} {tail : List Token} (hlevels : depth ≤ levels)
    (hsteps : tokens.length < steps) (htail : Ends (min lower upper) tail) :
    operandFor steps levels nextPrecedence lower (tokens ++ tail) =
      some tail := by
  obtain ⟨steps, rfl⟩ := Nat.exists_eq_add_one_of_ne_zero
    (Nat.ne_zero_of_lt hsteps)
  obtain ⟨fuel, -, hread⟩ := h.reads hlevels (Nat.le_of_lt_succ hsteps)
    (htail.mono (Nat.min_le_right _ _))
  have hloose := Nat.le_trans htail.loose (Nat.min_le_left _ _)
  rw [hread]
  cases fuel with
  | nil => rfl
  | cons step fuel => simp [operatorsFor, hloose]

theorem expression (h : IsPhrase depth 0 upper tokens) :
    IsExpression (depth + 1) tokens where
  starts := h.starts
  reads {levels steps tail} hlevels hsteps htail := by
    obtain ⟨levels, rfl⟩ := Nat.exists_eq_add_one_of_ne_zero
      (Nat.ne_zero_of_lt hlevels)
    exact h.operandFor_eq (Nat.le_of_succ_le_succ hlevels) hsteps
      (htail.mono (Nat.zero_le _))

/-- The right operand of an operator. -/
theorem part (h : IsPhrase depth (nextPrecedence [op]) upper tokens)
    (hop : TakesOperand op compares) :
    IsPart depth (min (nextPrecedence [op]) upper) op tokens := by
  intro levels steps tail hlevels hsteps htail
  have hstart : anyKeyword ["ANY", "ALL"] (tokens ++ tail) = none :=
    (h.starts.append tail).anyKeyword_eq_none (by simp)
  rw [hop.part]
  unfold rightOperand branch
  rw [hstart]
  exact h.operandFor_eq hlevels hsteps htail

/-- More operands of the operator behind the phrase. -/
theorem more (h : IsPhrase depth lower (nextPrecedence [op]) tokens)
    (hop : TakesOperand op compares) (hlower : lower < nextPrecedence [op])
    {operands : List (List Token)}
    (hoperands : ∀ taken ∈ operands,
      IsPhrase depth (nextPrecedence [op]) (nextPrecedence [op]) taken) :
    IsPhrase depth lower (nextPrecedence [op])
      (tokens ++ operands.flatMap (op :: ·)) := by
  induction operands generalizing tokens with
  | nil => simpa using h
  | cons taken operands ih =>
      obtain ⟨htaken, hoperands⟩ := List.forall_mem_cons.1 hoperands
      have hpart := htaken.part hop
      rw [Nat.min_self] at hpart
      have hnext := ih (h.operator hop.mem hlower (Nat.le_refl _) hpart) hoperands
      simpa using hnext

end IsPhrase

theorem joined_cons (tokens : List Token) (more : List (List Token)) :
    Token.joined [op] (tokens :: more) = tokens ++ more.flatMap (op :: ·) := by
  induction more generalizing tokens with
  | nil => simp [Token.joined]
  | cons next more ih => simp [Token.joined, ih]

/-- Operands of one operator. -/
theorem isPhrase_joined {operands : List (List Token)} (hne : operands ≠ [])
    (hop : TakesOperand op compares) (hlower : lower < nextPrecedence [op])
    (h : ∀ tokens ∈ operands, ∀ precedence ≤ nextPrecedence [op],
      IsPhrase depth precedence (nextPrecedence [op]) tokens) :
    IsPhrase depth lower (nextPrecedence [op])
      (Token.joined [op] operands) := by
  obtain ⟨tokens, operands, rfl⟩ := List.exists_cons_of_ne_nil hne
  obtain ⟨htokens, hoperands⟩ := List.forall_mem_cons.1 h
  rw [joined_cons]
  exact (htokens lower (Nat.le_of_lt hlower)).more hop hlower
    fun taken htaken => hoperands taken htaken _ (Nat.le_refl _)

/-- An expression of its own is all that is read. -/
theorem IsExpression.expression_eq (h : IsExpression depth tokens) {levels : Nat}
    (hlevels : depth ≤ levels) :
    Recogniser.expression levels tokens = some [] := by
  have hread := h.reads hlevels (Nat.lt_succ_self _) (ends_nil 0)
  rwa [List.append_nil] at hread

end Recogniser

end GovernedCatalog.Sql
