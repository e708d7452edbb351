import GovernedCatalog.Error
import GovernedCatalog.Sql.Operand
import GovernedCatalog.Sql.Query

/-!
# SQL expressions

A recogniser for one SQL expression.  Operators bind by precedence: a part read
at a precedence ends before the first operator that does not bind tighter.
Expressions of their own and queries nest in a bounded number of levels;
operands stay in the level of their expression.
-/

namespace GovernedCatalog.Sql

/-- What may stand inside a construct with so many levels left. -/
def Inside.within
    (operandAt : (levels : Nat) → (next : List Token → Nat) →
      (precedence : Nat) → Recogniser)
    (queryAt : (levels : Nat) → Recogniser) (levels : Nat) : Inside where
  expression := fun tokens =>
    match levels with
    | 0 => none
    | levels + 1 => operandAt levels Recogniser.nextPrecedence 0 tokens
  operand := operandAt levels Recogniser.nextPrecedence
  comparison := operandAt levels Recogniser.comparisonPrecedence 0
  query := fun tokens =>
    match levels with
    | 0 => none
    | levels + 1 => queryAt levels tokens

namespace Recogniser

mutual

/-- An operand that ends before the first operator at or below a precedence,
with so many levels inside it.  Every step consumes a token. -/
def operandFor : (steps : Nat) → (levels : Nat) →
    (next : List Token → Nat) → (precedence : Nat) → Recogniser
  | 0, _, _, _, _ => none
  | steps + 1, levels, next, precedence, tokens =>
      let inside :=
        Inside.within (operandFor steps) (queryFor steps) levels
      (firstOperand inside tokens).bind (operators inside next precedence)

/-- A query with so many levels inside it. -/
def queryFor : (steps : Nat) → (levels : Nat) → Recogniser
  | 0, _, _ => none
  | steps + 1, levels, tokens =>
      fullQuery (Inside.within (operandFor steps) (queryFor steps) levels)
        tokens

end

/-- An expression in at most `levels` levels, its own among them. -/
def expression (levels : Nat) : Recogniser := fun tokens =>
  let steps := tokens.length + 1
  (Inside.within (operandFor steps) (queryFor steps) levels).expression tokens

end Recogniser

/-! ## Raw clauses

A raw clause is accepted if its text is exactly one SQL expression. -/

/-- How deeply the expressions of a clause may nest. -/
def maxClauseDepth : Nat := 50

def clauseFault? (clause : String) : Option ClauseFault :=
  match Token.ofText? clause with
  | none => some .malformed
  | some tokens =>
      match Recogniser.expression maxClauseDepth tokens with
      | none => some .malformed
      | some [] => none
      | some (_ :: _) => some .trailingInput

def checkClause (clause : String) : Except Error Unit :=
  match clauseFault? clause with
  | none => .ok ()
  | some fault => .error (.invalidClause clause fault)

end GovernedCatalog.Sql
