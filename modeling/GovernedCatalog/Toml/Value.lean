import GovernedCatalog.Json.Decode
import GovernedCatalog.Text.Search
import GovernedCatalog.Toml.Text

/-!
# Values of TOML texts

What stands behind a key, and the tables that keys and headings open.

## Tables

A table is opened once, by a heading or by the dotted keys of its fields.  A
heading may open a table after the headings of tables inside it, and dotted keys
may not add to a table that has a heading.
-/

namespace GovernedCatalog.Toml

/-- What a table was opened by. -/
inductive Opening where
  | heading
  /-- The heading of a table inside it. -/
  | innerHeading
  | dottedKey
  deriving DecidableEq, Repr

inductive Entry where
  | value (j : Json)
  | table (opening : Opening) (entries : List (String × Entry))
  deriving Inhabited

abbrev Table := List (String × Entry)

namespace Table

def get? (t : Table) (name : String) : Option Entry :=
  (t.find? fun e => e.1 == name).map (·.2)

/-- Adds an entry, or replaces the one that has the name. -/
def set (t : Table) (name : String) (entry : Entry) : Table :=
  if t.any fun e => e.1 == name then
    t.map fun e => if e.1 = name then (name, entry) else e
  else t ++ [(name, entry)]

/-- Gives a new key its value. -/
def put? (t : Table) (value : Json) : (key : List String) → Option Table
  | [] => none
  | [name] =>
      match t.get? name with
      | none => some (t.set name (.value value))
      | some _ => none
  | name :: key =>
      match t.get? name with
      | none => do
          return t.set name (.table .dottedKey (← put? [] value key))
      | some (.table .heading _) => none
      | some (.table opening inner) => do
          return t.set name (.table opening (← put? inner value key))
      | some (.value _) => none

/-- Opens the table that has a heading. -/
def open? (t : Table) : (heading : List String) → Option Table
  | [] => none
  | [name] =>
      match t.get? name with
      | none => some (t.set name (.table .heading []))
      | some (.table .innerHeading inner) =>
          some (t.set name (.table .heading inner))
      | some _ => none
  | name :: heading =>
      match t.get? name with
      | none => do
          return t.set name (.table .innerHeading (← open? [] heading))
      | some (.table opening inner) => do
          return t.set name (.table opening (← open? inner heading))
      | some (.value _) => none

/-- Gives a new key its value in the table that has a heading. -/
def putUnder? (t : Table) (value : Json) (key : List String) :
    (heading : List String) → Option Table
  | [] => t.put? value key
  | name :: heading =>
      match t.get? name with
      | some (.table opening inner) => do
          return t.set name
            (.table opening (← putUnder? inner value key heading))
      | _ => none

end Table

mutual

def Entry.toJson : Entry → Json
  | .value j => j
  | .table _ entries => .obj (entriesToFields entries)

def entriesToFields : List (String × Entry) → List (String × Json)
  | [] => []
  | (name, entry) :: rest => (name, entry.toJson) :: entriesToFields rest

end

def Table.toJson (t : Table) : Json := .obj (entriesToFields t)

/-!
## Values

Whole numbers have 64 bits with a sign, and any number may have underscores
between its digits.  An array may stand on several lines, and a table within a
line is a value to which nothing can be added.  Dates and times are refused.
-/

/-- Digits without the underscores between them. -/
def joinDigits? (isDigit : Char → Bool) (cs : List Char) :
    Option (List Char) :=
  let groups := Text.splitOn '_' cs
  if groups.all fun g => !g.isEmpty && g.all isDigit then some groups.flatten
  else none

/-- Whether a decimal number may begin with these digits. -/
def noLeadingZero (digits : List Char) : Bool :=
  digits.head? ≠ some '0' || digits.length = 1

def int64? (v : Int) : Option Json :=
  if Decimal.fitsInt64 v then some (.int v) else none

def readInt? (cs : List Char) : Option Json := do
  let (negative, digits) := Decimal.takeSign cs
  let digits ← joinDigits? Char.isDigit digits
  if noLeadingZero digits then
    let n : Int := Decimal.natOfDigits digits
    int64? (if negative then -n else n)
  else none

/-- A number in base 16, 8 or 2, after its mark. -/
def readMarked? : List Char → Option Json
  | '0' :: 'x' :: cs => do
      let digits ← joinDigits? Text.isHexDigit cs
      int64? (Text.natOfHex digits)
  | '0' :: 'o' :: cs => do
      let digits ← joinDigits? (fun c => '0' ≤ c && c ≤ '7') cs
      int64? (digits.foldl (fun n c => 8 * n + Decimal.digitValue c) 0 : Nat)
  | '0' :: 'b' :: cs => do
      let digits ← joinDigits? (fun c => c = '0' || c = '1') cs
      int64? (digits.foldl (fun n c => 2 * n + Decimal.digitValue c) 0 : Nat)
  | _ => none

/-- A number with a fraction, an exponent or both, or the name of an infinity
or of NaN. -/
def readReal? (cs : List Char) : Option Json := do
  let unsigned := (Decimal.takeSign cs).2
  if unsigned = ['i', 'n', 'f'] ∨ unsigned = ['n', 'a', 'n'] then
    return .real (← Decimal.readFloat? cs)
  let isMark (c : Char) : Bool := c = 'e' || c = 'E'
  let number := unsigned.takeWhile fun c => !isMark c
  let whole ← joinDigits? Char.isDigit (number.takeWhile (· != '.'))
  let fraction ←
    match number.dropWhile (· != '.') with
    | _ :: fraction => joinDigits? Char.isDigit fraction
    | [] => some []
  let exponent ←
    match unsigned.dropWhile fun c => !isMark c with
    | _ :: exponent => joinDigits? Char.isDigit (Decimal.takeSign exponent).2
    | [] => some []
  if noLeadingZero whole && !(fraction.isEmpty && exponent.isEmpty) then
    return .real (← Decimal.readFloat? (cs.filter (· != '_')))
  else none

def isWordChar (c : Char) : Bool :=
  c.isAlphanum || c = '_' || c = '+' || c = '-' || c = '.' || c = ':'

/-- The value of a word without quotes. -/
def ofWord? (cs : List Char) : Option Json :=
  if cs = ['t', 'r', 'u', 'e'] then some (.bool true)
  else if cs = ['f', 'a', 'l', 's', 'e'] then some (.bool false)
  else (readInt? cs).or ((readMarked? cs).or (readReal? cs))

mutual

/-- Reads a value inside so many arrays and tables.  Every step consumes a
character, so the length of the text bounds the steps. -/
def readValue? : (steps : Nat) → (level : Nat) → List Char →
    Option (Json × List Char)
  | 0, _, _ => none
  | steps + 1, level, '[' :: rest =>
      if level + 1 < nestingLimit then
        (readItems? steps (level + 1) rest).map fun r => (.arr r.1, r.2)
      else none
  | steps + 1, level, '\x7b' :: rest =>
      if level + 1 < nestingLimit then
        match skipSpace rest with
        | '\x7d' :: rest => some (.obj [], rest)
        | rest =>
            (readFields? steps (level + 1) [] rest).map fun r =>
              (r.1.toJson, r.2)
      else none
  | _ + 1, _, cs =>
      match readString? cs with
      | some (s, rest) => some (.str s, rest)
      | none => do
          let value ← ofWord? (cs.takeWhile isWordChar)
          return (value, cs.dropWhile isWordChar)

/-- Reads the items of an array up to its closing bracket, before which there
may be a comma. -/
def readItems? : (steps : Nat) → (level : Nat) → List Char →
    Option (List Json × List Char)
  | 0, _, _ => none
  | steps + 1, level, cs =>
      match skipBlank false cs with
      | ']' :: rest => some ([], rest)
      | start => do
          let (item, rest) ← readValue? steps level start
          match skipBlank false rest with
          | ',' :: rest =>
              let (items, tail) ← readItems? steps level rest
              return (item :: items, tail)
          | ']' :: rest => return ([item], rest)
          | _ => none

/-- Reads the fields of a table within a line up to its closing brace, into a
table of those before them. -/
def readFields? : (steps : Nat) → (level : Nat) → Table → List Char →
    Option (Table × List Char)
  | 0, _, _, _ => none
  | steps + 1, level, t, cs => do
      let (key, rest) ← readKey? cs
      match rest with
      | '=' :: rest =>
          let (value, rest) ← readValue? steps level (skipSpace rest)
          let t ← t.put? value key
          match skipSpace rest with
          | ',' :: rest => readFields? steps level t rest
          | '\x7d' :: rest => return (t, rest)
          | _ => none
      | _ => none

end

end GovernedCatalog.Toml
