import GovernedCatalog.Text.Character
import GovernedCatalog.Text.Hexadecimal
import GovernedCatalog.Text.Quoted

/-!
# SQL tokens

A text is cut into words, quoted names, numbers, texts and marks.  White space
and comments separate tokens and are left out.
-/

namespace GovernedCatalog.Sql

inductive Token where
  /-- A name or keyword without quotes. -/
  | word (spelling : String)
  /-- A name between double quotes or backticks. -/
  | quoted (quote : Char) (name : String)
  /-- A number as it is written, and whether it is marked as a long one. -/
  | number (digits : String) (isLong : Bool)
  | text (value : String)
  /-- A text with escapes, as it reads without them. -/
  | escaped (value : String)
  /-- A text in the national character set. -/
  | national
  /-- A number or text in hexadecimal digits. -/
  | hexadecimal
  /-- A text between dollar signs. -/
  | dollarQuoted
  /-- A parameter of a prepared statement. -/
  | parameter
  /-- An operator or a punctuation mark. -/
  | mark (spelling : String)
  | stray (c : Char)
  deriving DecidableEq, Repr

namespace Token

def isWordStart (c : Char) : Bool := Text.isLetter c || c = '_'

def isWordPart (c : Char) : Bool :=
  Text.isLetter c || c.isDigit || c = '_' || c = '$'

/-- Operators and punctuation; of two that begin alike the longer one stands
first. -/
def marks : List String :=
  ["!~~*", "!~~", "!~*", "!~", "!=", "!!", "!", "~~*", "~~", "~*", "~",
    "||/", "||", "|/", "|", "<=>", "<=", "<>", "<<", "<@", "<", ">=", ">>",
    ">", "=>", "==", "=", "#>>", "#>", "#-", "#", "@>", "@?", "@@", "@", "::",
    ":=", ":", "&&", "&", "^@", "^", "->>", "->", "-", "/", "+", "*", "%", "(",
    ")", ",", ";", "\\", "[", "]", "\x7b", "\x7d"]

/-- What follows a comment up to the end of its line. -/
def skipLine : List Char → List Char
  | [] => []
  | '\n' :: rest => rest
  | _ :: rest => skipLine rest

/-- What follows a bracketed comment inside `depth + 1` openings; `last` is
the character before. -/
def skipComment : (depth : Nat) → (last : Char) → List Char →
    Option (List Char)
  | _, _, [] => none
  | depth, last, c :: rest =>
      if last = '/' ∧ c = '*' then skipComment (depth + 1) c rest
      else if last = '*' ∧ c = '/' then
        match depth with
        | 0 => some rest
        | depth + 1 => skipComment depth c rest
      else skipComment depth c rest

/-- The character that a backslash makes of the one after it: some letters
stand for controls, and all other characters for themselves. -/
def unescape : Char → Char
  | 'n' => '\n'
  | 'r' => '\r'
  | 't' => '\t'
  | c => c

/-- Reads a text with escapes whose opening quote has been consumed; `escaped`
tells whether a backslash stands before. -/
def readEscaped : (escaped : Bool) → List Char →
    Option (List Char × List Char)
  | _, [] => none
  | true, c :: rest =>
      (readEscaped false rest).map fun r => (unescape c :: r.1, r.2)
  | false, '\'' :: '\'' :: rest =>
      (readEscaped false rest).map fun r => ('\'' :: r.1, r.2)
  | false, '\'' :: rest => some ([], rest)
  | false, '\\' :: rest => readEscaped true rest
  | false, c :: rest =>
      (readEscaped false rest).map fun r => (c :: r.1, r.2)

/-- What follows the next occurrence of `closing`. -/
def skipPast (closing : List Char) : List Char → Option (List Char)
  | [] => none
  | c :: rest =>
      if closing.isPrefixOf (c :: rest) then
        some (rest.drop (closing.length - 1))
      else skipPast closing rest

/-- A text between dollar signs, or a parameter with its name.  Between two
tags there is no dollar sign. -/
def readDollar (cs : List Char) : Option (Token × List Char) :=
  let isTag (c : Char) := Text.isLetter c || Text.isNumeral c || c = '_'
  let tag := cs.takeWhile isTag
  match cs.dropWhile isTag with
  | '$' :: rest =>
      if tag.isEmpty then
        (skipPast ['$', '$'] rest).map fun tail => (dollarQuoted, tail)
      else
        let closing := '$' :: (tag ++ ['$'])
        let tail := rest.dropWhile (· ≠ '$')
        if closing.isPrefixOf tail then
          some (dollarQuoted, tail.drop closing.length)
        else none
  | rest => some (parameter, rest)

/-- The rest after the digits of an exponent, if there is one. -/
def skipExponent (cs : List Char) : List Char :=
  let digits? : Option (List Char) :=
    match cs with
    | c :: rest =>
        if c = 'e' ∨ c = 'E' then
          match rest with
          | s :: rest' => if s = '+' ∨ s = '-' then some rest' else some rest
          | [] => none
        else none
    | [] => none
  match digits? with
  | some (d :: rest) => if d.isDigit then rest.dropWhile Char.isDigit else cs
  | _ => cs

/-- A number whose text ends where `rest` begins, perhaps marked as long. -/
def closeNumber (cs rest : List Char) : Token × List Char :=
  let digits := String.ofList (cs.take (cs.length - rest.length))
  match rest with
  | 'L' :: tail => (number digits true, tail)
  | tail => (number digits false, tail)

/-- A number, or a point that stands alone. -/
def readNumber (cs : List Char) : Token × List Char :=
  let whole := cs.takeWhile Char.isDigit
  match whole, cs.dropWhile Char.isDigit with
  | ['0'], 'x' :: rest => (hexadecimal, rest.dropWhile Text.isHexDigit)
  | _, '.' :: rest =>
      let tail := rest.dropWhile Char.isDigit
      if whole.isEmpty && tail.length = rest.length then (mark ".", rest)
      else closeNumber cs (skipExponent tail)
  | _, rest => closeNumber cs (skipExponent rest)

def readWord (cs : List Char) : Token × List Char :=
  (word (String.ofList (cs.takeWhile isWordPart)), cs.dropWhile isWordPart)

def readMark (cs : List Char) : Option (Token × List Char) :=
  (marks.find? fun m => m.toList.isPrefixOf cs).map fun m =>
    (mark m, cs.drop m.length)

/-- Reads a name between two quotes, whose opening one has been consumed. -/
def readQuoted (quote : Char) (cs : List Char) : Option (Token × List Char) :=
  (Text.scan quote cs).map fun r => (quoted quote (String.ofList r.1), r.2)

/-- Reads the next token, or what separates tokens; refuses a text, name or
comment that does not end. -/
def read? : List Char → Option (Option Token × List Char)
  | [] => none
  | '-' :: '-' :: rest => some (none, skipLine rest)
  | '/' :: '*' :: rest => (skipComment 0 ' ' rest).map fun r => (none, r)
  | '\'' :: rest =>
      (Text.scan '\'' rest).map fun r =>
        (some (text (String.ofList r.1)), r.2)
  | '"' :: rest => (readQuoted '"' rest).map fun r => (some r.1, r.2)
  | '\x60' :: rest => (readQuoted '\x60' rest).map fun r => (some r.1, r.2)
  | '$' :: rest => (readDollar rest).map fun r => (some r.1, r.2)
  | '?' :: rest => some (some parameter, rest.dropWhile Text.isNumeral)
  | c :: '\'' :: rest =>
      match c.toLower with
      | 'n' => (Text.scan '\'' rest).map fun r => (some national, r.2)
      | 'x' => (Text.scan '\'' rest).map fun r => (some hexadecimal, r.2)
      | 'e' =>
          (readEscaped false rest).map fun r =>
            (some (escaped (String.ofList r.1)), r.2)
      | _ => some (readOther c ('\'' :: rest))
  | c :: rest => some (readOther c rest)
where
  readOther (c : Char) (rest : List Char) : Option Token × List Char :=
    if c.isDigit || c = '.' then
      let r := readNumber (c :: rest)
      (some r.1, r.2)
    else if isWordStart c then
      let r := readWord (c :: rest)
      (some r.1, r.2)
    else
      match readMark (c :: rest) with
      | some r => (some r.1, r.2)
      | none => if Text.isBlank c then (none, rest) else (some (stray c), rest)

/-- Reads all tokens.  Every step consumes a character. -/
def readAll : (steps : Nat) → List Char → Option (List Token)
  | _, [] => some []
  | 0, _ => none
  | steps + 1, cs => do
      let (token?, rest) ← read? cs
      let tokens ← readAll steps rest
      match token? with
      | some token => return token :: tokens
      | none => return tokens

/-- The tokens of a text. -/
def ofText? (sql : String) : Option (List Token) :=
  readAll sql.length sql.toList

end Token

end GovernedCatalog.Sql
