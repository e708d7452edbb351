import GovernedCatalog.Sql.Recogniser

/-!
# What stands inside a construct

Constructs of SQL hold expressions and queries.  The recognisers for constructs
take those for what is inside them, so that each construct can be described
before the expressions that it is part of.
-/

namespace GovernedCatalog.Sql

/-- The recognisers for what may stand inside a construct. -/
structure Inside where
  /-- An expression of its own. -/
  expression : Recogniser
  /-- An operand, which ends before the first operator that does not bind
  tighter than a precedence. -/
  operand : (precedence : Nat) → Recogniser
  /-- An operand that ends before the first logical connective. -/
  comparison : Recogniser
  /-- A query. -/
  query : Recogniser

namespace Recogniser

/-- A constant, or a parameter with its mark. -/
def value : Recogniser
  | .number _ _ :: rest | .text _ :: rest | .escaped _ :: rest
  | .national :: rest | .hexadecimal :: rest | .dollarQuoted :: rest
  | .parameter :: rest | .quoted '"' _ :: rest => some rest
  | .mark m :: token :: rest =>
      if m = ":" ∨ m = "@" then
        match token with
        | .word _ | .quoted _ _ | .number _ false => some rest
        | _ => none
      else none
  | tokens => anyKeyword ["TRUE", "FALSE", "NULL"] tokens

/-- An alias, which after `AS` can be any word. -/
def aliasUnless (reserved : List String) : Recogniser :=
  branch (keyword "AS") nameOrText fun tokens =>
    match tokens with
    | .word w :: rest =>
        if isKeyword reserved (.word w) then some tokens else some rest
    | .quoted _ _ :: rest | .text _ :: rest => some rest
    | _ => some tokens

section Parts

variable (inside : Inside)

def expressions : Recogniser := commaList inside.expression

def orderItems : Recogniser :=
  commaList
    (sequence
      [inside.expression, optional (anyKeyword ["ASC", "DESC"]),
        optional
          (orElse (keywords ["NULLS", "FIRST"]) (keywords ["NULLS", "LAST"]))])

def orderBy : Recogniser :=
  following (keywords ["ORDER", "BY"]) (orderItems inside)

/-- The rest of expressions in parentheses, of which there may be none. -/
def tupleRest : Recogniser :=
  orElse (mark ")") (andThen (expressions inside) (mark ")"))

/-- `ALL`, or `DISTINCT` with the expressions that decide it, but not both. -/
def allOrDistinct : Recogniser :=
  branch (keyword "ALL")
    (fun tokens =>
      if (keyword "DISTINCT" tokens).isSome then none else some tokens)
    (following (keyword "DISTINCT")
      (following (keyword "ON") (andThen (mark "(") (tupleRest inside))))

/-- The names and points before a star. -/
def qualifiedStar : Recogniser :=
  sequence [nameOrText, many (andThen (mark ".") nameOrText), mark ".", mark "*"]

/-- An expression, or a star with or without a qualification. -/
def starOrExpression : Recogniser :=
  orElse (mark "*") (orElse qualifiedStar inside.expression)

/-- A query in parentheses, or something else in parentheses, after the opening
one. -/
def queryOr (other : Recogniser) : Recogniser := fun tokens =>
  let content :=
    if (anyKeyword ["SELECT", "WITH"] tokens).isSome then inside.query
    else other
  andThen content (mark ")") tokens

def subquery : Recogniser := parenthesised inside.query

end Parts

end Recogniser

end GovernedCatalog.Sql
