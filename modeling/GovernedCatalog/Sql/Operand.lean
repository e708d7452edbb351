import GovernedCatalog.Sql.Function

/-!
# SQL operands

The beginning of an expression up to its first operator: a constant, a name, a
call, an operator in front of an operand, or something in parentheses.
-/

namespace GovernedCatalog.Sql.Recogniser

section Parts

variable (inside : Inside)

/-- The words after the points of a name, a star after the last point, or the
arguments of a call. -/
def afterPoint : Recogniser :=
  andThen (many (andThen (mark ".") nameOrText)) fun tokens =>
    match tokens with
    | .mark "." :: .mark "*" :: rest => some rest
    | .mark "." :: _ => none
    | .mark "(" :: rest => call inside (.mark "(" :: rest)
    | _ => some tokens

/-- What follows the first word of a name.  A name with an underscore in front
may be that of a character set, which a text follows. -/
def afterName (first : String) : Recogniser
  | .mark "." :: rest => afterPoint inside (.mark "." :: rest)
  | .mark "(" :: rest => call inside (.mark "(" :: rest)
  | .text t :: rest =>
      if first.startsWith "_" then some rest else some (.text t :: rest)
  | .hexadecimal :: rest =>
      if first.startsWith "_" then some rest else some (.hexadecimal :: rest)
  | tokens => some tokens

/-- A list in brackets after the opening one. -/
def arrayItems : Recogniser :=
  orElse (mark "]") (andThen (expressions inside) (mark "]"))

/-- What follows an opening parenthesis; a component of the result may be
selected after the closing one. -/
def group : Recogniser :=
  andThen (queryOr inside (expressions inside)) (following (mark ".") name)

def negation : Recogniser :=
  branch (keyword "EXISTS") (subquery inside) (inside.operand notPrecedence)

/-- What follows a word at the beginning of an expression. -/
def afterWord (spelling : String) (tokens : List Token) :
    Option (List Token) :=
  match Keyword.ofWord spelling with
  | "TRUE" | "FALSE" | "NULL" | "CURRENT_CATALOG" | "CURRENT_USER"
  | "SESSION_USER" | "USER" => some tokens
  | "CURRENT_TIMESTAMP" | "CURRENT_TIME" | "CURRENT_DATE" | "LOCALTIME"
  | "LOCALTIMESTAMP" => following (mark "(") (orderedArguments inside) tokens
  | "CASE" => caseExpression inside tokens
  | "CONVERT" => convert inside tokens
  | "CAST" | "TRY_CAST" | "SAFE_CAST" => cast inside tokens
  | "EXISTS" => subquery inside tokens
  | "EXTRACT" => extract inside tokens
  | "CEIL" | "FLOOR" => rounding inside tokens
  | "SUBSTRING" => substring inside tokens
  | "OVERLAY" => overlay inside tokens
  | "TRIM" => trimmed inside tokens
  | "INTERVAL" => interval inside tokens
  | "LISTAGG" => textList inside tokens
  | "ARRAY_AGG" => arrayOfRows inside tokens
  | "NOT" => negation inside tokens
  | k =>
      match k, tokens with
      | "POSITION", .mark "(" :: _ => position inside tokens
      | "ARRAY", .mark "(" :: _ => subquery inside tokens
      | "ARRAY", .mark "[" :: rest => arrayItems inside rest
      | _, _ => afterName inside spelling tokens

/-- A text after the name of its type, or an interval. -/
def typedConstant : Recogniser := fun tokens =>
  match readType tokens with
  | some (.builtin, rest) => literalText rest
  | some (.interval, rest) => interval inside rest
  | _ => none

/-- The beginning of an expression that is no typed constant. -/
def plainOperand : Recogniser
  | .word w :: rest => afterWord inside w rest
  | .quoted _ n :: rest => afterName inside n rest
  | .number _ _ :: rest | .text _ :: rest | .escaped _ :: rest
  | .national :: rest | .hexadecimal :: rest | .dollarQuoted :: rest
  | .parameter :: rest => some rest
  | .mark m :: rest =>
      match m with
      | "(" => group inside rest
      | "[" => arrayItems inside rest
      | "-" | "+" => inside.operand timesPrecedence rest
      | "!!" | "|/" | "||/" | "@" | "~" => inside.operand plusPrecedence rest
      | ":" => value (.mark ":" :: rest)
      | _ => none
  | _ => none

/-- The beginning of an expression, up to its first operator. -/
def firstOperand : Recogniser :=
  orElse (typedConstant inside)
    (andThen (plainOperand inside) (following (keyword "COLLATE") objectName))

end Parts

end GovernedCatalog.Sql.Recogniser
