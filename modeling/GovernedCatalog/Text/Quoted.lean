/-!
# Quoted text

A text is written between two quote characters, with every quote inside it
written twice.  `scan` is the reader that goes with it: after an opening quote
it stops at the first quote that is not doubled.
-/

namespace GovernedCatalog.Text

/-- Writes every occurrence of the quote twice. -/
def double (quote : Char) : List Char → List Char
  | [] => []
  | c :: rest =>
      if c = quote then quote :: quote :: double quote rest
      else c :: double quote rest

/-- The quoted form of a text. -/
def enclose (quote : Char) (cs : List Char) : List Char :=
  quote :: (double quote cs ++ [quote])

/-- Reads a quoted text whose opening quote has been consumed, and returns it
with what follows its closing quote. -/
def scan (quote : Char) : List Char → Option (List Char × List Char)
  | [] => none
  | c :: rest =>
      if c = quote then
        match rest with
        | [] => some ([], [])
        | d :: rest' =>
            if d = quote then
              (scan quote rest').map fun r => (quote :: r.1, r.2)
            else some ([], d :: rest')
      else (scan quote rest).map fun r => (c :: r.1, r.2)

end GovernedCatalog.Text
