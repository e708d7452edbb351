import GovernedCatalog.ColumnType.Basic
import GovernedCatalog.Decimal.Reading
import GovernedCatalog.Error
import GovernedCatalog.Json.Reader

/-!
# Defaults of columns

The database reports a column's default as an SQL expression.  Constants among
these are read back as values; a null constant and a sequence are no default,
and any other expression is refused unless the type takes every text.
-/

namespace GovernedCatalog

/-- Whether an expression draws the next value of a sequence. -/
def isSequenceDefault (raw : String) : Bool :=
  match Text.stripStart "nextval('".toList raw.toList with
  | none => false
  | some cs =>
      !(cs.takeWhile (· != '\'')).isEmpty &&
        cs.dropWhile (· != '\'') == "'::regclass)".toList

/-- The longest beginning of a line that a closing mark and a cast follow. -/
def beforeCast? : List Char → Option (List Char)
  | [] => none
  | c :: rest =>
      let longer := if c = '\n' then none else beforeCast? rest
      match longer with
      | some cs => some (c :: cs)
      | none =>
          if (c = '\'' ∨ c = ')') ∧ "::".toList.isPrefixOf rest then some []
          else none

/-- The text inside a quoted or parenthesised expression with a cast, or the
expression itself. -/
def uncast (raw : String) : String :=
  let inner? : Option (List Char) :=
    match raw.toList with
    | c :: rest => if c = '\'' ∨ c = '(' then beforeCast? rest else none
    | [] => none
  match inner? with
  | some cs => String.ofList (Text.replaceAll ['\'', '\''] ['\''] cs)
  | none => raw

def isTrue (text : String) : Bool :=
  text.toList.map Char.toLower == "true".toList

/-- The value of a constant of a named type. -/
def readConstant? (type constant : String) : Option Json :=
  let trimmed := Text.trim constant.toList
  if integerNames.contains type then (Decimal.readInt? trimmed).map Json.int
  else if realNames.contains type then
    match Decimal.readFloat? trimmed with
    | some x => if x.isNaN || x.isInf then none else some (.real x)
    | none => none
  else if booleanNames.contains type then some (.bool (isTrue constant))
  else if documentNames.contains type then Json.read? constant
  else some (.str constant)

def isSubtext (part text : String) : Bool :=
  Text.occursIn part.toList text.toList

/-- The default of a column of a named type. -/
def readScalarDefault (type raw : String) : Except Error (Option Json) :=
  if isSequenceDefault raw && isSubtext "serial" type then .ok none
  else if "NULL::".toList.isPrefixOf raw.toList then .ok none
  else
    match readConstant? type (uncast raw) with
    | some v => .ok (some v)
    | none => .error (.invalidDefault type raw)

/-- The items of an array expression. -/
def arrayItems? (raw : String) : Option (List String) :=
  ((Text.stripStart "ARRAY[".toList raw.toList).bind
    (Text.stripLast ']')).map fun cs =>
      (Text.splitOn ',' cs).map fun item => String.ofList (Text.trim item)

namespace ColumnType

/-- The default that an expression denotes.  The empty expression denotes
none. -/
def readDefault : ColumnType → String → Except Error (Option Json)
  | t, raw =>
      if raw.isEmpty then .ok none
      else
        match t with
        | scalar name => readScalarDefault name raw
        | domain _ base => base.readDefault raw
        | array base =>
            match arrayItems? raw with
            | none => base.readDefault raw
            | some items => do
                let values ← items.mapM base.readDefault
                return some (.arr (values.map Json.ofOption))

/-- The default of a column, if it has an expression for one. -/
def default? (t : ColumnType) : Option String → Except Error (Option Json)
  | none => .ok none
  | some raw => t.readDefault raw

end ColumnType

end GovernedCatalog
