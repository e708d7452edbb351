import GovernedCatalog.Sql.Table

/-!
# SQL queries

A query selects rows from tables, lists rows, or changes a table and returns
what it has changed.  Queries are combined, put into an order and cut off.
-/

namespace GovernedCatalog.Sql.Recogniser

section Parts

variable (inside : Inside)

/-- An item of a select list. -/
def selectItem : Recogniser :=
  let filter := sequence [keyword "FILTER", mark "(", keyword "WHERE"]
  orElse (mark "*")
    (orElse qualifiedStar
      (sequence
        [inside.expression,
          following filter (andThen inside.expression (mark ")")),
          aliasUnless reservedForColumns]))

/-- How many rows come first, at most. -/
def top : Recogniser :=
  sequence
    [branch (mark "(") (andThen inside.expression (mark ")")) wholeNumber,
      optional (keyword "PERCENT"), optional (keywords ["WITH", "TIES"])]

/-- The table that a selection is put into. -/
def target : Recogniser :=
  sequence
    [optional (anyKeyword ["TEMP", "TEMPORARY"]),
      optional (keyword "UNLOGGED"), optional (keyword "TABLE"), objectName]

def lateralView : Recogniser :=
  sequence
    [optional (keyword "OUTER"), inside.expression, objectName,
      commaList
        (aliasUnless ["WHERE", "GROUP", "CLUSTER", "HAVING", "LATERAL"])]

/-- An item of a grouping: an expression, or sets of expressions. -/
def groupingItem : Recogniser :=
  let tuple := andThen (mark "(") (tupleRest inside)
  let tupleOrOne := branch (mark "(") (tupleRest inside) inside.expression
  branch (keywords ["GROUPING", "SETS"]) (parenthesised (commaList tuple))
    (branch (anyKeyword ["CUBE", "ROLLUP"])
      (parenthesised (commaList tupleOrOne)) inside.expression)

def namedWindow : Recogniser :=
  sequence [nameOrText, keyword "AS", mark "(", window inside]

/-- A selection after its first word. -/
def selection : Recogniser :=
  let byExpressions (word : String) :=
    following (keywords [word, "BY"]) (expressions inside)
  sequence
    [allOrDistinct inside, following (keyword "TOP") (top inside),
      commaList (selectItem inside), following (keyword "INTO") target,
      following (keyword "FROM") (commaList (joinedTables inside)),
      each (keywords ["LATERAL", "VIEW"]) (lateralView inside),
      following (keyword "WHERE") inside.expression,
      following (keywords ["GROUP", "BY"])
        (branch (keyword "ALL") nothing (commaList (groupingItem inside))),
      byExpressions "CLUSTER", byExpressions "DISTRIBUTE",
      byExpressions "SORT", following (keyword "HAVING") inside.expression,
      following (keyword "WINDOW") (commaList (namedWindow inside)),
      following (keyword "QUALIFY") inside.expression]

/-- A table that stands for the query of all its rows.  Its name takes up three
tokens, whether or not there is a schema in it. -/
def wholeTable : Recogniser
  | first :: .mark "." :: last :: rest =>
      (sequence [name, name] [first, last]).bind fun _ => some rest
  | first :: _ :: _ :: rest => (name [first]).bind fun _ => some rest
  | _ => none

def queryTerm : Recogniser :=
  let row :=
    andThen (optional (keyword "ROW")) (parenthesised (expressions inside))
  branch (keyword "SELECT") (selection inside)
    (branch (mark "(") (andThen inside.query (mark ")"))
      (branch (keyword "VALUES") (commaList row)
        (andThen (keyword "TABLE") wholeTable)))

def setOperator : Recogniser :=
  let byName := keywords ["BY", "NAME"]
  branch (keyword "UNION")
    (orElse (keywords ["DISTINCT", "BY", "NAME"])
      (orElse byName
        (branch (keyword "ALL") (optional byName)
          (optional (keyword "DISTINCT")))))
    (andThen (anyKeyword ["EXCEPT", "INTERSECT"])
      (optional (anyKeyword ["ALL", "DISTINCT"])))

/-- Limits and offsets in any order; `limited` and `shifted` tell which there
have been.  A limit to all rows is none. -/
def limitsFor : (rounds : Nat) → (limited shifted : Bool) → Recogniser
  | 0, _, _, tokens => some tokens
  | rounds + 1, limited, shifted, tokens => do
      let (limited, rest) ←
        match limited, keyword "LIMIT" tokens with
        | false, some rest =>
            match keyword "ALL" rest with
            | some rest' => some (false, rest')
            | none => (inside.expression rest).map fun rest' => (true, rest')
        | _, _ => some (limited, tokens)
      let (shifted, rest) ←
        match shifted, keyword "OFFSET" rest with
        | false, some rest' =>
            (andThen inside.expression
              (optional (anyKeyword ["ROW", "ROWS"])) rest').map fun tail =>
                (true, tail)
        | _, _ => some (shifted, rest)
      limitsFor rounds limited shifted rest

def fetch : Recogniser :=
  sequence
    [anyKeyword ["FIRST", "NEXT"],
      branch (anyKeyword ["ROW", "ROWS"]) nothing
        (sequence
          [value, optional (keyword "PERCENT"),
            anyKeyword ["ROW", "ROWS"]]),
      orElse (keyword "ONLY") (keywords ["WITH", "TIES"])]

/-- How the result is written as a document. -/
def documentForm : Recogniser :=
  let root := following (keyword "ROOT") (parenthesised literalText)
  let markupMode :=
    branch (anyKeyword ["RAW", "PATH"])
      (following (mark "(") (andThen literalText (mark ")")))
      (anyKeyword ["AUTO", "EXPLICIT"])
  let markupOption :=
    branch (anyKeyword ["ELEMENTS", "TYPE"]) nothing
      (branch (keyword "BINARY") (keyword "BASE64") root)
  let objectOption :=
    branch (anyKeyword ["INCLUDE_NULL_VALUES", "WITHOUT_ARRAY_WRAPPER"])
      nothing root
  branch (keyword "XML") (andThen markupMode (each (mark ",") markupOption))
    (branch (keyword "JSON")
      (andThen (anyKeyword ["AUTO", "PATH"]) (each (mark ",") objectOption))
      (keyword "BROWSE"))

def lock : Recogniser :=
  sequence
    [anyKeyword ["UPDATE", "SHARE"], following (keyword "OF") objectName,
      optional (orElse (keyword "NOWAIT") (keywords ["SKIP", "LOCKED"]))]

/-- What the rows of a query are for: to be locked, or to be written as a
document. -/
def purposes : Recogniser :=
  andThen (many (andThen (keyword "FOR") lock))
    (following (keyword "FOR") documentForm)

/-- A query with a name, for the query after it. -/
def commonTable : Recogniser :=
  sequence
    [nameOrText,
      branch (keyword "AS") nothing
        (andThen optionalColumnList (keyword "AS")),
      subquery inside, following (keyword "FROM") nameOrText]

def commonTables : Recogniser :=
  following (keyword "WITH")
    (andThen (optional (keyword "RECURSIVE")) (commaList (commonTable inside)))

/-- A column and its new value. -/
def assignment : Recogniser :=
  let isOther (token : Token) : Bool :=
    token ≠ .mark "=" && !isKeyword Keyword.all token
  fun tokens =>
    andThen (mark "=") inside.expression (tokens.dropWhile isOther)

def assignments : Recogniser := commaList (assignment inside)

def returning : Recogniser :=
  following (keyword "RETURNING") (commaList (selectItem inside))

/-- What to do with rows that are there already. -/
def conflictAction : Recogniser :=
  let onConflict :=
    sequence
      [branch (keywords ["ON", "CONSTRAINT"]) objectName optionalColumnList,
        keyword "DO",
        branch (keyword "NOTHING") nothing
          (sequence
            [keywords ["UPDATE", "SET"], assignments inside,
              following (keyword "WHERE") inside.expression])]
  following (keyword "ON")
    (branch (keyword "CONFLICT") onConflict
      (andThen (keywords ["DUPLICATE", "KEY", "UPDATE"])
        (assignments inside)))

/-- An insertion after its first word. -/
def insertion : Recogniser :=
  let fileFormats :=
    ["TEXTFILE", "SEQUENCEFILE", "ORC", "PARQUET", "AVRO", "RCFILE",
      "JSONFILE"]
  let intoFiles :=
    sequence
      [literalText,
        following (keywords ["STORED", "AS"]) (anyKeyword fileFormats),
        inside.query]
  let rows :=
    sequence
      [optionalColumnList,
        following (keyword "PARTITION") (parenthesised (expressions inside)),
        optionalColumnList, inside.query]
  let intoTable :=
    sequence
      [optional (keyword "TABLE"), objectName,
        following (keyword "AS") nameOrText,
        branch (keywords ["DEFAULT", "VALUES"]) nothing rows,
        conflictAction inside, returning inside]
  sequence
    [optional (anyKeyword ["INTO", "OVERWRITE"]), optional (keyword "LOCAL"),
      branch (keyword "DIRECTORY") intoFiles intoTable]

/-- An update after its first word. -/
def update : Recogniser :=
  sequence
    [joinedTables inside, keyword "SET", assignments inside,
      following (keyword "FROM") (joinedTables inside),
      following (keyword "WHERE") inside.expression, returning inside]

/-- A query with all its parts. -/
def fullQuery : Recogniser :=
  let reading :=
    sequence
      [separated setOperator (queryTerm inside), orderBy inside,
        limitsFor inside 2 false false, following (keyword "FETCH") fetch,
        purposes]
  andThen (commonTables inside)
    (branch (keyword "INSERT") (insertion inside)
      (branch (keyword "UPDATE") (update inside) reading))

end Parts

end GovernedCatalog.Sql.Recogniser
