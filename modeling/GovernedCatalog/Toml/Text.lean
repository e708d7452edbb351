import GovernedCatalog.Json.Reader
import GovernedCatalog.Toml.Nesting

/-!
# Strings and keys of TOML texts

A string is quoted with escapes or without, on one line or, between three
quotes, on several.  A dotted key is a list of bare and quoted names.
-/

namespace GovernedCatalog.Toml

def isSpace (c : Char) : Bool := c = ' ' || c = '\t'

def skipSpace (cs : List Char) : List Char := cs.dropWhile isSpace

/-- Characters that may stand for themselves in strings and comments. -/
def isPlain (c : Char) : Bool := c = '\t' || (' ' ≤ c && c.toNat ≠ 0x7F)

/-- Passes over white space, ends of lines and comments. -/
def skipBlank : (inComment : Bool) → List Char → List Char
  | _, [] => []
  | _, '\n' :: rest => skipBlank false rest
  | _, '\r' :: '\n' :: rest => skipBlank false rest
  | true, c :: rest => if isPlain c then skipBlank true rest else c :: rest
  | false, c :: rest =>
      if isSpace c then skipBlank false rest
      else if c = '#' then skipBlank true rest
      else c :: rest

/-- The rest of a text after a line that has at most a comment left. -/
def endLine? (cs : List Char) : Option (List Char) :=
  let rest :=
    match skipSpace cs with
    | '#' :: comment => comment.dropWhile isPlain
    | rest => rest
  match rest with
  | [] => some []
  | '\n' :: rest => some rest
  | '\r' :: '\n' :: rest => some rest
  | _ => none

def simpleEscape? (c : Char) : Option Char :=
  if c = '/' then none else Json.simpleEscape? c

/-- Whether a long string's line ends here, but for white space. -/
def endsLine (cs : List Char) : Bool :=
  match skipSpace cs with
  | '\n' :: _ => true
  | '\r' :: '\n' :: _ => true
  | _ => false

/-- The end of a long string, with the quotes that are its last characters. -/
def closeLong? (quote : Char) (cs : List Char) :
    Option (List Char × List Char) :=
  let quotes := (cs.takeWhile (· = quote)).length
  if quotes < 3 then none
  else
    let kept := min (quotes - 3) 2
    some (List.replicate kept quote, cs.drop (kept + 3))

/-- The end of a string at the beginning of a text. -/
def close? (long : Bool) (quote : Char) (cs : List Char) :
    Option (List Char × List Char) :=
  match long, cs with
  | true, cs => closeLong? quote cs
  | false, c :: rest => if c = quote then some ([], rest) else none
  | false, [] => none

/-- Whether a character may stand in a string before the rest of the text. -/
def isContent (long : Bool) (c : Char) (rest : List Char) : Bool :=
  isPlain c ||
    (long && (c = '\n' || (c = '\r' && rest.head? = some '\n')))

/-- Reads a string without escapes up to its end. -/
def readLiteral (long : Bool) : List Char → Option (List Char × List Char)
  | [] => none
  | c :: rest =>
      match close? long '\'' (c :: rest) with
      | some closed => some closed
      | none =>
          if isContent long c rest then
            (readLiteral long rest).map fun r => (c :: r.1, r.2)
          else none

/-- Reads a string with escapes up to its end.  White space is passed over
while `skipping`, which a backslash at the end of a line begins. -/
def readBasic (long : Bool) : (skipping : Bool) → List Char →
    Option (List Char × List Char)
  | _, [] => none
  | true, '\r' :: '\n' :: rest => readBasic long true rest
  | true, c :: rest =>
      if isSpace c || c = '\n' then readBasic long true rest
      else readBasic long false (c :: rest)
  | false, '\\' :: 'u' :: a :: b :: c :: d :: rest => do
      let e ← Text.scalar? (← Text.hex4? a b c d)
      let (cs, tail) ← readBasic long false rest
      return (e :: cs, tail)
  | false, '\\' :: 'U' :: a :: b :: c :: d :: a' :: b' :: c' :: d' :: rest => do
      let high ← Text.hex4? a b c d
      let e ← Text.scalar? (0x10000 * high + (← Text.hex4? a' b' c' d'))
      let (cs, tail) ← readBasic long false rest
      return (e :: cs, tail)
  | false, '\\' :: c :: rest =>
      if long && endsLine (c :: rest) then readBasic long true (c :: rest)
      else do
        let e ← simpleEscape? c
        let (cs, tail) ← readBasic long false rest
        return (e :: cs, tail)
  | false, c :: rest =>
      match close? long '"' (c :: rest) with
      | some closed => some closed
      | none =>
          if c ≠ '\\' && isContent long c rest then
            (readBasic long false rest).map fun r => (c :: r.1, r.2)
          else none
  termination_by skipping cs => 2 * cs.length + skipping.toNat

/-- The text after an end of line at its beginning, or all of it. -/
def dropNewline : List Char → List Char
  | '\n' :: rest => rest
  | '\r' :: '\n' :: rest => rest
  | cs => cs

/-- Reads a string from its opening quote; one quote opens a short string and
three open a long one. -/
def readString? : List Char → Option (String × List Char)
  | '"' :: '"' :: '"' :: rest => text (readBasic true false (dropNewline rest))
  | '\'' :: '\'' :: '\'' :: rest => text (readLiteral true (dropNewline rest))
  | cs => readShort? cs
where
  text (r? : Option (List Char × List Char)) : Option (String × List Char) :=
    r?.map fun r => (String.ofList r.1, r.2)
  readShort? : List Char → Option (String × List Char)
    | '"' :: rest => text (readBasic false false rest)
    | '\'' :: rest => text (readLiteral false rest)
    | _ => none

def isBare (c : Char) : Bool := c.isAlphanum || c = '_' || c = '-'

/-- Reads one name of a key. -/
def readName? (cs : List Char) : Option (String × List Char) :=
  match readString?.readShort? cs with
  | some r => some r
  | none =>
      let name := cs.takeWhile isBare
      if name.isEmpty then none
      else some (String.ofList name, cs.dropWhile isBare)

/-- Reads the names of a key with points between them.  Every name has a
character, so the length of the text bounds the steps. -/
def readNames? : (steps : Nat) → List Char → Option (List String × List Char)
  | 0, _ => none
  | steps + 1, cs => do
      let (name, rest) ← readName? (skipSpace cs)
      match skipSpace rest with
      | '.' :: rest =>
          let (names, tail) ← readNames? steps rest
          return (name :: names, tail)
      | rest => return ([name], rest)

/-- Reads a key. -/
def readKey? (cs : List Char) : Option (List String × List Char) := do
  let (names, rest) ← readNames? (cs.length + 1) cs
  if names.length < nestingLimit then return (names, rest) else none

end GovernedCatalog.Toml
