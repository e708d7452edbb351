import GovernedCatalog.Sql.Operator

/-!
# Calls of SQL functions

A call has arguments in parentheses, and perhaps a filter and a window after
them.  Some functions have words of their own between their arguments.
-/

namespace GovernedCatalog.Sql.Recogniser

/-- The fields of dates and times. -/
def timeFields : List String :=
  ["YEAR", "MONTH", "WEEK", "DAY", "DAYOFWEEK", "DAYOFYEAR", "DATE", "HOUR",
    "MINUTE", "SECOND", "CENTURY", "DECADE", "DOY", "DOW", "EPOCH", "ISODOW",
    "ISOWEEK", "ISOYEAR", "JULIAN", "MICROSECOND", "MICROSECONDS",
    "MILLENIUM", "MILLENNIUM", "MILLISECOND", "MILLISECONDS", "NANOSECOND",
    "NANOSECONDS", "QUARTER", "TIME", "TIMEZONE", "TIMEZONE_HOUR",
    "TIMEZONE_MINUTE", "TIMEZONE_ABBR", "TIMEZONE_REGION"]

/-- The fields that may not follow the value of an interval. -/
def foreignFields : List String :=
  ["DAYOFWEEK", "DAYOFYEAR", "DATE", "ISOWEEK", "TIME", "TIMEZONE_ABBR",
    "TIMEZONE_REGION"]

/-- The fields that may follow the value of an interval. -/
def intervalFields : List String :=
  timeFields.filter fun field => !foreignFields.contains field

section Parts

variable (inside : Inside)

/-- The value of an interval and its unit; seconds have a scale, other units a
smaller one at their end. -/
def interval : Recogniser :=
  andThen inside.comparison fun tokens =>
    let range :=
      andThen precision
        (following (keyword "TO")
          (branch (keyword "SECOND") precision (anyKeyword timeFields)))
    branch (keyword "SECOND") precisionAndScale
      (andThen (optional (anyKeyword intervalFields)) range) tokens

/-- An argument, perhaps with its name. -/
def argument : Recogniser
  | .word _ :: .mark "=>" :: rest | .quoted _ _ :: .mark "=>" :: rest
  | .text _ :: .mark "=>" :: rest => starOrExpression inside rest
  | tokens => starOrExpression inside tokens

/-- The arguments of a function after its opening parenthesis. -/
def arguments : Recogniser :=
  orElse (mark ")") (andThen (commaList (argument inside)) (mark ")"))

/-- Arguments that may be put into an order. -/
def orderedArguments : Recogniser :=
  orElse (mark ")")
    (sequence [commaList (argument inside), orderBy inside, mark ")"])

/-- One end of the rows that a window looks at. -/
def frameBound : Recogniser :=
  let distance : Recogniser := fun tokens =>
    if (text tokens).isSome then interval inside tokens
    else inside.expression tokens
  orElse (keywords ["CURRENT", "ROW"])
    (andThen (branch (keyword "UNBOUNDED") nothing distance)
      (anyKeyword ["PRECEDING", "FOLLOWING"]))

def windowFrame : Recogniser :=
  andThen (anyKeyword ["ROWS", "RANGE", "GROUPS"])
    (branch (keyword "BETWEEN")
      (sequence [frameBound inside, keyword "AND", frameBound inside])
      (frameBound inside))

/-- A window after its opening parenthesis. -/
def window : Recogniser :=
  sequence
    [following (keywords ["PARTITION", "BY"]) (expressions inside),
      orderBy inside,
      orElse (mark ")") (andThen (windowFrame inside) (mark ")"))]

/-- A call after the name of the function. -/
def call : Recogniser :=
  sequence
    [mark "(", allOrDistinct inside, orderedArguments inside,
      following (keyword "FILTER")
        (following (mark "(")
          (following (keyword "WHERE")
            (andThen inside.expression (mark ")")))),
      following (anyKeyword ["RESPECT", "IGNORE"]) (keyword "NULLS"),
      following (keyword "OVER")
        (branch (mark "(") (window inside) nameOrText)]

def caseExpression : Recogniser :=
  let branchAfterWhen :=
    sequence [inside.expression, keyword "THEN", inside.expression]
  sequence
    [branch (keyword "WHEN") nothing
        (andThen inside.expression (keyword "WHEN")),
      separated (keyword "WHEN") branchAfterWhen,
      following (keyword "ELSE") inside.expression, keyword "END"]

def cast : Recogniser :=
  parenthesised
    (sequence
      [inside.expression, keyword "AS", typeName,
        following (keyword "FORMAT")
          (andThen value (following (keywords ["AT", "TIME", "ZONE"]) value))])

/-- The change of a text's character set, or of a value's type. -/
def convert : Recogniser :=
  parenthesised
    (andThen inside.expression
      (branch (keyword "USING") objectName
        (sequence
          [mark ",", typeName,
            following (keywords ["CHARACTER", "SET"]) objectName])))

def extract : Recogniser :=
  parenthesised
    (sequence [anyKeyword timeFields, keyword "FROM", inside.expression])

def rounding : Recogniser :=
  parenthesised
    (andThen inside.expression
      (following (keyword "TO") (anyKeyword timeFields)))

/-- The place of a text in another; the first one ends before `IN`. -/
def position : Recogniser :=
  parenthesised
    (sequence
      [inside.operand betweenPrecedence, keyword "IN", inside.expression])

def substring : Recogniser :=
  parenthesised
    (sequence
      [inside.expression,
        following (orElse (mark ",") (keyword "FROM")) inside.expression,
        following (orElse (keyword "FOR") (mark ",")) inside.expression])

def overlay : Recogniser :=
  parenthesised
    (sequence
      [inside.expression, keyword "PLACING", inside.expression,
        keyword "FROM", inside.expression,
        following (keyword "FOR") inside.expression])

def trimmed : Recogniser :=
  parenthesised
    (sequence
      [optional (anyKeyword ["BOTH", "LEADING", "TRAILING"]),
        inside.expression,
        branch (keyword "FROM") inside.expression (optional (mark ","))])

/-- What stands for the texts that a list has no room for. -/
def overflowFiller : Recogniser
  | .text t :: rest => inside.expression (.text t :: rest)
  | .escaped t :: rest => inside.expression (.escaped t :: rest)
  | .national :: rest => inside.expression (.national :: rest)
  | .hexadecimal :: rest => inside.expression (.hexadecimal :: rest)
  | tokens => some tokens

def textList : Recogniser :=
  let overflow :=
    following (keywords ["ON", "OVERFLOW"])
      (branch (keyword "ERROR") nothing
        (sequence
          [keyword "TRUNCATE", overflowFiller inside,
            anyKeyword ["WITH", "WITHOUT"], keyword "COUNT"]))
  let order := sequence [keywords ["ORDER", "BY"], orderItems inside]
  sequence
    [parenthesised
        (sequence
          [allOrDistinct inside, inside.expression,
            following (mark ",") inside.expression, overflow]),
      following (keywords ["WITHIN", "GROUP"]) (parenthesised order)]

/-- A number of rows, or no limit. -/
def limit : Recogniser := branch (keyword "ALL") nothing inside.expression

def arrayOfRows : Recogniser :=
  parenthesised
    (sequence
      [optional (keyword "DISTINCT"), inside.expression, orderBy inside,
        following (keyword "LIMIT") (limit inside)])

end Parts

end GovernedCatalog.Sql.Recogniser
