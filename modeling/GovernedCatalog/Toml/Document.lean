import GovernedCatalog.Toml.Value

/-!
# Reading TOML texts

A text is a sequence of headings and of keys with their values, one on a line.
A key belongs to the table of the last heading before it.  Headings of tables in
arrays are refused.
-/

namespace GovernedCatalog.Toml

/-- The table read so far, and the heading that its next keys belong to. -/
structure Draft where
  table : Table
  heading : List String

/-- Reads a heading whose opening bracket has been consumed. -/
def readHeading? (d : Draft) (cs : List Char) :
    Option (Draft × List Char) := do
  let (heading, rest) ← readKey? cs
  match rest with
  | ']' :: rest => return (⟨← d.table.open? heading, heading⟩, rest)
  | _ => none

def readField? (d : Draft) (cs : List Char) : Option (Draft × List Char) := do
  let (key, rest) ← readKey? cs
  match rest with
  | '=' :: rest =>
      let (value, rest) ← readValue? (rest.length + 1) 0 (skipSpace rest)
      return ({ d with table := ← d.table.putUnder? value key d.heading }, rest)
  | _ => none

/-- Reads the rest of a text into a draft.  Every step consumes a character, so
the length of the text bounds the steps. -/
def readLines? : (steps : Nat) → Draft → List Char → Option Table
  | 0, _, _ => none
  | steps + 1, d, cs =>
      match skipBlank false cs with
      | [] => some d.table
      | '[' :: rest => do
          let (d, rest) ← readHeading? d rest
          readLines? steps d (← endLine? rest)
      | start => do
          let (d, rest) ← readField? d start
          readLines? steps d (← endLine? rest)

/-- The table that a whole text describes, as an object. -/
def ofText? (text : String) : Option Json :=
  let cs := text.toList
  (readLines? (cs.length + 1) ⟨[], []⟩ cs).map Table.toJson

end GovernedCatalog.Toml
