import GovernedCatalog.Decimal.Shortest
import GovernedCatalog.Json.Basic
import GovernedCatalog.Text.Search
import GovernedCatalog.Text.Shown

/-!
# Writing JSON texts

The compact form has no spaces; the indented form puts every item and field on
a line of its own, two spaces deeper than its container.
-/

namespace GovernedCatalog.Json

/-- Four hexadecimal digits of a control character. -/
def controlDigits (n : Nat) : List Char :=
  let digits := Text.hexDigits n
  List.replicate (4 - digits.length) '0' ++ digits

def escapeChar (c : Char) : List Char :=
  if c = '"' then ['\\', '"']
  else if c = '\\' then ['\\', '\\']
  else if c.toNat = 0x08 then ['\\', 'b']
  else if c.toNat = 0x0C then ['\\', 'f']
  else if c = '\n' then ['\\', 'n']
  else if c = '\r' then ['\\', 'r']
  else if c = '\t' then ['\\', 't']
  else if c.toNat < 0x20 then '\\' :: 'u' :: controlDigits c.toNat
  else [c]

def quoted (s : String) : String :=
  String.ofList ('"' :: (s.toList.flatMap escapeChar ++ ['"']))

/-- A number that is not finite has no JSON text and is written as null. -/
def writeReal (x : Float) : String :=
  if x.isNaN || x.isInf then "null" else Decimal.jsonLayout.write x

mutual

/-- The compact text of a value. -/
def write : Json → String
  | null => "null"
  | bool true => "true"
  | bool false => "false"
  | int n => toString n
  | real x => writeReal x
  | str s => quoted s
  | arr items => "[" ++ Text.join "," (writeItems items) ++ "]"
  | obj fields => "\x7b" ++ Text.join "," (writeFields fields) ++ "\x7d"

def writeItems : List Json → List String
  | [] => []
  | j :: rest => j.write :: writeItems rest

def writeFields : List (String × Json) → List String
  | [] => []
  | (k, j) :: rest => (quoted k ++ ":" ++ j.write) :: writeFields rest

end

def indent (depth : Nat) : String :=
  String.ofList (List.replicate (2 * depth) ' ')

/-- Lines between an opening and a closing bracket. -/
def block (opening closing : String) (depth : Nat) (lines : List String) :
    String :=
  if lines.isEmpty then opening ++ closing
  else
    opening ++ "\n" ++ indent (depth + 1) ++
      Text.join (",\n" ++ indent (depth + 1)) lines ++
      "\n" ++ indent depth ++ closing

mutual

/-- The indented text of a value inside `depth` containers. -/
def writeIndented (depth : Nat) : Json → String
  | arr items => block "[" "]" depth (indentedItems depth items)
  | obj fields => block "\x7b" "\x7d" depth (indentedFields depth fields)
  | j => j.write

def indentedItems (depth : Nat) : List Json → List String
  | [] => []
  | j :: rest => j.writeIndented (depth + 1) :: indentedItems depth rest

def indentedFields (depth : Nat) : List (String × Json) → List String
  | [] => []
  | (k, j) :: rest =>
      (quoted k ++ ": " ++ j.writeIndented (depth + 1)) ::
        indentedFields depth rest

end

end GovernedCatalog.Json
