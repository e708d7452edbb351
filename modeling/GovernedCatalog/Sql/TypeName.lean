import GovernedCatalog.Sql.Recogniser

/-!
# Names of data types in SQL

Built-in types have names of their own, some of several words; every other name
is that of a user's type.
-/

namespace GovernedCatalog.Sql.Recogniser

/-- A length or precision in parentheses. -/
def precision : Recogniser :=
  following (mark "(") (andThen wholeNumber (mark ")"))

/-- A length with an optional unit, or no limit. -/
def characterLength : Recogniser :=
  following (mark "(")
    (andThen
      (branch (keyword "MAX") nothing
        (andThen wholeNumber (optional (anyKeyword ["CHARACTERS", "OCTETS"]))))
      (mark ")"))

/-- A precision and an optional scale. -/
def precisionAndScale : Recogniser :=
  following (mark "(")
    (sequence [wholeNumber, following (mark ",") wholeNumber, mark ")"])

/-- The part of a type's name that says whether it has a time zone. -/
def timeZone : Recogniser :=
  following (anyKeyword ["WITH", "WITHOUT"]) (keywords ["TIME", "ZONE"])

def character : Recogniser :=
  branch (keyword "VARYING") characterLength
    (branch (keywords ["LARGE", "OBJECT"]) precision characterLength)

/-- What follows the first word of a built-in type, by that word. -/
def afterTypeWord (word : String) : Option Recogniser :=
  if ["BOOLEAN", "BOOL", "REAL", "FLOAT4", "FLOAT8", "FLOAT64", "INT64", "UUID",
      "DATE", "JSON", "JSONB", "REGCLASS", "TEXT", "BYTEA",
      "INTERVAL"].contains word then some nothing
  else if ["FLOAT", "NVARCHAR", "CLOB", "BINARY", "VARBINARY", "BLOB", "BYTES",
      "STRING", "DATETIME", "TIMESTAMPTZ", "TIMETZ"].contains word then
    some precision
  else if ["TINYINT", "SMALLINT", "MEDIUMINT", "INT", "INT2", "INT4", "INT8",
      "INTEGER", "BIGINT"].contains word then
    some (andThen precision (optional (keyword "UNSIGNED")))
  else if ["NUMERIC", "DECIMAL", "DEC", "BIGNUMERIC",
      "BIGDECIMAL"].contains word then some precisionAndScale
  else if ["TIMESTAMP", "TIME"].contains word then
    some (andThen precision timeZone)
  else
    match word with
    | "DOUBLE" => some (optional (keyword "PRECISION"))
    | "VARCHAR" => some characterLength
    | "CHARACTER" | "CHAR" => some character
    | "ENUM" | "SET" => some (parenthesised (commaList text))
    | _ => none

/-- The modifiers of a user's type, in parentheses. -/
def typeModifiers : Recogniser :=
  let modifier : Recogniser := fun tokens =>
    match tokens with
    | .word _ :: rest | .quoted _ _ :: rest | .number _ _ :: rest
    | .text _ :: rest | .mark "," :: rest => some rest
    | _ => none
  following (mark "(") (andThen (many modifier) (mark ")"))

/-- What the name of a type stands for. -/
inductive TypeKind where
  | builtin
  | interval
  | custom
  deriving DecidableEq

/-- A type at the beginning of a list of tokens. -/
structure TypeReading where
  kind : TypeKind
  /-- Whether the mark that ended the type also ends the type around it. -/
  endsOuter : Bool
  rest : List Token

/-- The angle bracket after the type of an array's elements; a double one is
shared with the array around this one. -/
def closeArray (element : TypeReading) : Option TypeReading :=
  if element.endsOuter then some ⟨.builtin, false, element.rest⟩
  else
    match element.rest with
    | .mark ">" :: rest => some ⟨.builtin, false, rest⟩
    | .mark ">>" :: rest => some ⟨.builtin, true, rest⟩
    | _ => none

/-- A type before the brackets that make arrays of it; types nest in at most as
many others as there are steps. -/
def readTypeFor : (steps : List Token) → List Token → Option TypeReading
  | [], _ => none
  | _, [] => none
  | _ :: steps, token :: rest => do
      let simple (kind : TypeKind) (r : Recogniser) (tokens : List Token) :
          Option TypeReading :=
        (r tokens).map fun tail => ⟨kind, false, tail⟩
      let userType :=
        simple .custom (andThen objectName typeModifiers) (token :: rest)
      let base ←
        match token with
        | .word w =>
            match Keyword.ofWord w with
            | "ARRAY" => do
                closeArray (← readTypeFor steps (← mark "<" rest))
            | k =>
                match afterTypeWord k with
                | some r =>
                    simple (if k = "INTERVAL" then .interval else .builtin) r
                      rest
                | none => userType
        | .quoted _ _ => userType
        | _ => none
      match base.rest with
      | .mark "[" :: tail =>
          (separated (mark "[") (mark "]") tail).map fun tail' =>
            ⟨.builtin, base.endsOuter, tail'⟩
      | _ => some base

/-- Reads the name of a type. -/
def readType (tokens : List Token) : Option (TypeKind × List Token) := do
  let type ← readTypeFor tokens tokens
  if type.endsOuter then none else return (type.kind, type.rest)

def typeName : Recogniser := fun tokens => (readType tokens).map (·.2)

end GovernedCatalog.Sql.Recogniser
