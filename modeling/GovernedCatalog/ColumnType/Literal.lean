import GovernedCatalog.ColumnType.Basic
import GovernedCatalog.Decimal.Reading
import GovernedCatalog.Decimal.Shortest
import GovernedCatalog.Error

/-!
# Values as SQL constants

A value is written as a constant of a type: a number, a quoted text with a cast,
or an array of such constants.
-/

namespace GovernedCatalog

/-- The value as a whole number of 64 bits with a sign. -/
def wholeNumber? : Json → Option Int
  | .int n => if Decimal.fitsInt64 n then some n else none
  | .str s => Decimal.readInt? (Text.trim s.toList)
  | _ => none

/-- The value as a floating-point number. -/
def realNumber? : Json → Option Float
  | .int n => some (Float.ofInt n)
  | .real x => some x
  | .str s => Decimal.readFloat? (Text.trim s.toList)
  | _ => none

/-- The text of a value of a named type that is written with quotes. -/
def quotedText? (type : String) (value : Json) : Option String :=
  if documentNames.contains type then some value.write
  else
    match value with
    | .str s => some s
    | .bool _ | .int _ | .real _ => some value.write
    | _ => none

/-- The constant of a type that is no array, named `type`. -/
def constantText? (type : String) (value : Json) : Option String :=
  if integerNames.contains type || serialNames.contains type then
    (wholeNumber? value).map toString
  else if realNames.contains type then
    (realNumber? value).map Decimal.constantLayout.write
  else (quotedText? type value).map fun text => Sql.literal text ++ "::" ++ type

namespace ColumnType

def literal (t : ColumnType) (value : Json) : Except Error String :=
  match t with
  | array base =>
      match value with
      | .arr items => do
          let constants ← items.mapM base.literal
          return "ARRAY[" ++ Text.join ", " constants ++ "]::" ++
            (array base).sql
      | _ => .error (.invalidLiteral (array base).name value)
  | scalar name | domain name _ =>
      match constantText? name value with
      | some constant => .ok constant
      | none => .error (.invalidLiteral name value)

end ColumnType

end GovernedCatalog
