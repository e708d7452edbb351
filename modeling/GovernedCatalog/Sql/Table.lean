import GovernedCatalog.Sql.Function

/-!
# Tables in queries

A query takes its rows from tables: tables with names, queries in parentheses,
the results of functions, and tables joined to each other.
-/

namespace GovernedCatalog.Sql.Recogniser

/-- Words that cannot be an alias without `AS`, after a table. -/
def reservedForTables : List String :=
  ["WITH", "EXPLAIN", "ANALYZE", "SELECT", "WHERE", "GROUP", "SORT", "HAVING",
    "ORDER", "PIVOT", "UNPIVOT", "TOP", "LATERAL", "VIEW", "LIMIT", "OFFSET",
    "FETCH", "UNION", "EXCEPT", "INTERSECT", "ON", "JOIN", "INNER", "CROSS",
    "FULL", "LEFT", "RIGHT", "NATURAL", "USING", "CLUSTER", "DISTRIBUTE",
    "OUTER", "SET", "QUALIFY", "WINDOW", "END", "FOR", "PARTITION"]

/-- Words that cannot be an alias without `AS`, in a select list. -/
def reservedForColumns : List String :=
  ["WITH", "EXPLAIN", "ANALYZE", "SELECT", "WHERE", "GROUP", "SORT", "HAVING",
    "ORDER", "TOP", "LATERAL", "VIEW", "LIMIT", "OFFSET", "FETCH", "UNION",
    "EXCEPT", "INTERSECT", "CLUSTER", "DISTRIBUTE", "FROM", "INTO", "END"]

/-- An alias for a table and, if there is one, for its columns. -/
def tableAlias : Recogniser := fun tokens =>
  (aliasUnless reservedForTables tokens).bind fun rest =>
    if rest.length = tokens.length then some rest else optionalColumnList rest

section Parts

variable (inside : Inside)

/-- A column of a table made from a document, with what stands for missing and
for faulty values. -/
def documentColumn : Recogniser :=
  let fallback :=
    branch (keyword "DEFAULT") value (anyKeyword ["NULL", "ERROR"])
  sequence
    [nameOrText, typeName, optional (keyword "EXISTS"), keyword "PATH", value,
      each (fun tokens => (anyKeyword ["DEFAULT", "NULL", "ERROR"] tokens).bind
          fun _ => some tokens)
        (sequence [fallback, keyword "ON", anyKeyword ["EMPTY", "ERROR"]])]

def documentTable : Recogniser :=
  andThen
    (parenthesised
      (sequence
        [inside.expression, mark ",", value, keyword "COLUMNS",
          parenthesised (commaList documentColumn)]))
    tableAlias

def unnested : Recogniser :=
  sequence
    [parenthesised (expressions inside), tableAlias,
      following (keyword "WITH")
        (following (keyword "OFFSET") (aliasUnless reservedForColumns))]

/-- A table whose rows become columns, or whose columns become rows. -/
def pivoted : Recogniser :=
  let rowsToColumns :=
    parenthesised
      (sequence
        [name, call inside, keyword "FOR", objectName, keyword "IN",
          parenthesised (commaList value)])
  let columnsToRows :=
    parenthesised
      (sequence
        [nameOrText, keyword "FOR", nameOrText, keyword "IN", columnList])
  andThen
    (branch (keyword "PIVOT") rowsToColumns
      (andThen (keyword "UNPIVOT") columnsToRows))
    tableAlias

/-- A table with a name, or the result of a function. -/
def namedTable : Recogniser :=
  let hints := andThen (expressions inside) (mark ")")
  sequence
    [objectName, following (mark "(") (arguments inside), tableAlias,
      following
        (fun tokens => (keyword "WITH" tokens).bind (mark "(")) hints,
      many (pivoted inside)]

/-- A table that is neither a join nor a query in parentheses. -/
def simpleTable : Recogniser :=
  branch (keyword "TABLE")
    (andThen (parenthesised inside.expression) tableAlias)
    (branch (keyword "UNNEST") (unnested inside)
      (branch (keyword "JSON_TABLE") (documentTable inside)
        (namedTable inside)))

/-- A query in parentheses after the opening one. -/
def derivedTable : Recogniser :=
  sequence [inside.query, mark ")", tableAlias]

/-- A table that can refer to those before it. -/
def lateralTable : Recogniser :=
  branch (mark "(") (derivedTable inside)
    (sequence [objectName, mark "(", arguments inside, tableAlias])

/-- What joins a table to those before it, without the table. -/
def joinWords : List Token → Option (Bool × List Token) := fun tokens =>
  let oneSided :=
    andThen (anyKeyword ["LEFT", "RIGHT"])
      (andThen (optional (anyKeyword ["OUTER", "SEMI", "ANTI"]))
        (keyword "JOIN"))
  let full :=
    sequence [keyword "FULL", optional (keyword "OUTER"), keyword "JOIN"]
  let inner := andThen (optional (keyword "INNER")) (keyword "JOIN")
  let conditional := orElse inner (orElse oneSided full)
  let unconditional :=
    branch (keyword "CROSS") (anyKeyword ["JOIN", "APPLY"])
      (keywords ["OUTER", "APPLY"])
  match unconditional tokens with
  | some rest => some (false, rest)
  | none =>
      match keyword "NATURAL" tokens with
      | some rest => (conditional rest).map fun tail => (false, tail)
      | none => (conditional tokens).map fun tail => (true, tail)

/-- The condition of a join. -/
def joinCondition : Recogniser :=
  branch (keyword "ON") inside.expression
    (following (keyword "USING") columnList)

/-- A join of a table that `factor` reads. -/
def join (factor : Recogniser) : Recogniser := fun tokens =>
  (joinWords tokens).bind fun (hasCondition, rest) =>
    (factor rest).bind
      (if hasCondition then joinCondition inside else nothing)

/-- A table, or tables joined in parentheses, which nest in at most as many
others as there are steps; tells whether tables are joined. -/
def tableFactor : (steps : List Token) → List Token →
    Option (Bool × List Token)
  | [], _ => none
  | _ :: steps, tokens =>
      match keyword "LATERAL" tokens with
      | some rest => (lateralTable inside rest).map fun tail => (false, tail)
      | none =>
          match tokens with
          | .mark "(" :: rest =>
              match derivedTable inside rest with
              | some tail =>
                  (many (pivoted inside) tail).map fun tail' => (false, tail')
              | none => do
                  let factor : Recogniser := fun tokens =>
                    (tableFactor steps tokens).map (·.2)
                  let (nested, first) ← tableFactor steps rest
                  let joined ← many (join inside factor) first
                  if nested ∨ joined.length < first.length then
                    let tail ← andThen (mark ")") tableAlias joined
                    return (true, tail)
                  else none
          | _ => (simpleTable inside tokens).map fun tail => (false, tail)

/-- A table and those joined to it. -/
def joinedTables : Recogniser := fun tokens =>
  let factor : Recogniser := fun tokens =>
    (tableFactor inside tokens tokens).map (·.2)
  andThen factor (many (join inside factor)) tokens

end Parts

end GovernedCatalog.Sql.Recogniser
