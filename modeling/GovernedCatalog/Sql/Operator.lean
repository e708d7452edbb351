import GovernedCatalog.Sql.Inside
import GovernedCatalog.Sql.TypeName

/-!
# SQL operators

An operator follows an operand and takes what is on its right.  How tightly it
binds decides which operands are its own.
-/

namespace GovernedCatalog.Sql.Recogniser

def orPrecedence : Nat := 5
def andPrecedence : Nat := 10
def notPrecedence : Nat := 15
def isPrecedence : Nat := 17
def likePrecedence : Nat := 19
def betweenPrecedence : Nat := 20
def xorPrecedence : Nat := 24
def plusPrecedence : Nat := 30
def timesPrecedence : Nat := 40
def tightPrecedence : Nat := 50

def likeWords : List String := ["LIKE", "ILIKE", "RLIKE", "REGEXP", "SIMILAR"]

/-- How tightly a mark binds between two operands; zero if it is no
operator. -/
def markPrecedence (m : String) : Nat :=
  if ["=", "<", "<=", "<>", "!=", ">", ">=", "==", "~", "~*", "!~", "!~*", "~~",
      "~~*", "!~~", "!~~*", "<=>"].contains m then betweenPrecedence
  else if m = "|" then 21
  else if ["^", "#", ">>", "<<"].contains m then 22
  else if m = "&" then 23
  else if ["+", "-"].contains m then plusPrecedence
  else if ["*", "/", "%", "||"].contains m then timesPrecedence
  else if ["::", ":", "!", "[", "->>", "->", "#>", "#>>", "@>", "<@", "#-", "@?",
      "@@", "&&", "^@"].contains m then tightPrecedence
  else 0

/-- How tightly the operator at the head of the tokens binds. -/
def nextPrecedence : List Token → Nat
  | .mark m :: _ => markPrecedence m
  | token :: rest =>
      match keywordOf token with
      | some "OR" => orPrecedence
      | some "AND" => andPrecedence
      | some "XOR" => xorPrecedence
      | some "AT" =>
          if (keywords ["TIME", "ZONE"] rest).isSome then betweenPrecedence
          else 0
      | some "NOT" =>
          if (anyKeyword ["IN", "BETWEEN"] rest).isSome then betweenPrecedence
          else if (anyKeyword likeWords rest).isSome then likePrecedence
          else 0
      | some "IS" => isPrecedence
      | some "IN" | some "BETWEEN" | some "OPERATOR" => betweenPrecedence
      | some "DIV" => timesPrecedence
      | some k => if likeWords.contains k then likePrecedence else 0
      | none => 0
  | [] => 0

/-- The same where logical connectives are no operators. -/
def comparisonPrecedence (tokens : List Token) : Nat :=
  if (anyKeyword ["AND", "OR", "XOR"] tokens).isSome then 0
  else nextPrecedence tokens

/-- Operators that compare with any or all elements of an array. -/
def comparisons : List String := ["=", "==", "<>", "!=", "<", "<=", ">", ">="]

/-- Operators on documents, whose right operand extends as far as it can. -/
def arrows : List String :=
  ["->", "->>", "#>", "#>>", "@>", "<@", "#-", "@?", "@@"]

section Parts

variable (inside : Inside)

/-- The right operand of an operator: an expression, or any or all elements of
an array if the operator compares. -/
def rightOperand (precedence : Nat) (compares : Bool) : Recogniser :=
  branch (anyKeyword ["ANY", "ALL"])
    (if compares then parenthesised (inside.operand precedence)
      else fun _ => none)
    (inside.operand precedence)

/-- What follows `IS`. -/
def afterIs : Recogniser :=
  andThen (optional (keyword "NOT"))
    (branch (anyKeyword ["NULL", "TRUE", "FALSE", "UNKNOWN"]) nothing
      (andThen (keywords ["DISTINCT", "FROM"]) inside.expression))

def membership : Recogniser :=
  branch (keyword "UNNEST") (parenthesised inside.expression)
    (andThen (mark "(") (queryOr inside (expressions inside)))

def range : Recogniser :=
  let bound := inside.operand betweenPrecedence
  sequence [bound, keyword "AND", bound]

/-- The character that takes away the meaning of those in a pattern, of one
byte. -/
def escapeCharacter : Recogniser :=
  following (keyword "ESCAPE") fun tokens =>
    match readText? tokens with
    | some (t, rest) => if t.utf8ByteSize = 1 then some rest else none
    | none => none

/-- An operator with words: membership, ranges and patterns, perhaps
negated. -/
def wordOperator : Recogniser :=
  let pattern := inside.operand likePrecedence
  let expressionPattern :=
    orElse (andThen (keyword "REGEXP") (optional (keyword "RLIKE")))
      (keyword "RLIKE")
  andThen (optional (keyword "NOT"))
    (branch expressionPattern pattern
      (branch (keyword "IN") (membership inside)
        (branch (keyword "BETWEEN") (range inside)
          (sequence
            [orElse (anyKeyword ["LIKE", "ILIKE"]) (keywords ["SIMILAR", "TO"]),
              pattern, escapeCharacter]))))

/-- The name of an operator in parentheses. -/
def operatorName : Recogniser := parenthesised (separated (mark ".") anything)

/-- An operator at the given precedence and what it takes on its right. -/
def operatorPart (precedence : Nat) : Recogniser
  | .mark m :: rest =>
      if m = "::" then typeName rest
      else if m = "!" then some rest
      else if m = "[" then andThen inside.expression (mark "]") rest
      else if m = ":" then value rest
      else if arrows.contains m then inside.expression rest
      else rightOperand inside precedence (comparisons.contains m) rest
  | token :: rest =>
      match (keywordOf token).getD "" with
      | "AND" | "OR" | "XOR" => rightOperand inside precedence false rest
      | "OPERATOR" =>
          andThen operatorName (rightOperand inside precedence false) rest
      | "IS" => afterIs inside rest
      | "AT" => andThen (keywords ["TIME", "ZONE"]) text rest
      | "DIV" => none
      | _ => wordOperator inside (token :: rest)
  | [] => none

/-- The operators that bind tighter than `precedence`, as `next` says. -/
def operatorsFor (next : List Token → Nat) (precedence : Nat) :
    (steps : List Token) → Recogniser
  | [], tokens => some tokens
  | _ :: steps, tokens =>
      if next tokens ≤ precedence then some tokens
      else
        (operatorPart inside (next tokens) tokens).bind
          (operatorsFor next precedence steps)

def operators (next : List Token → Nat) (precedence : Nat) : Recogniser :=
  fun tokens => operatorsFor inside next precedence tokens tokens

end Parts

end GovernedCatalog.Sql.Recogniser
