import GovernedCatalog.Decimal.Reading
import GovernedCatalog.Sql.Keyword
import GovernedCatalog.Sql.Token

/-!
# Recognisers

A recogniser consumes the beginning of a list of tokens and returns the rest,
or refuses.
-/

namespace GovernedCatalog.Sql

abbrev Recogniser := List Token → Option (List Token)

namespace Recogniser

/-- The keyword that a token stands for, in capitals. -/
def keywordOf : Token → Option String
  | .word spelling => some (Keyword.ofWord spelling)
  | _ => none

def isKeyword (names : List String) (token : Token) : Bool :=
  match keywordOf token with
  | some k => names.contains k
  | none => false

def keyword (name : String) : Recogniser
  | [] => none
  | token :: rest => if isKeyword [name] token then some rest else none

/-- One of several keywords. -/
def anyKeyword (names : List String) : Recogniser
  | [] => none
  | token :: rest => if isKeyword names token then some rest else none

def keywords : List String → Recogniser
  | [], tokens => some tokens
  | name :: names, tokens => (keyword name tokens).bind (keywords names)

def mark (spelling : String) : Recogniser
  | [] => none
  | token :: rest => if token = .mark spelling then some rest else none

/-- A name, with or without quotes. -/
def name : Recogniser
  | .word _ :: rest => some rest
  | .quoted _ _ :: rest => some rest
  | _ => none

/-- A name, or a text in its place. -/
def nameOrText : Recogniser
  | .text _ :: rest => some rest
  | tokens => name tokens

def text : Recogniser
  | .text _ :: rest => some rest
  | _ => none

/-- A number without fraction and exponent that fits into 64 bits. -/
def wholeNumber : Recogniser
  | .number digits _ :: rest =>
      let cs := digits.toList
      if cs.all Char.isDigit ∧ Decimal.natOfDigits cs < Nat.pow 2 64 then
        some rest
      else none
  | _ => none

/-- Reads a text, or a name that is no keyword in its place. -/
def readText? : List Token → Option (String × List Token)
  | .text t :: rest | .escaped t :: rest | .quoted _ t :: rest => some (t, rest)
  | .word w :: rest =>
      if Keyword.all.contains (Keyword.ofWord w) then none else some (w, rest)
  | _ => none

def literalText : Recogniser := fun tokens => (readText? tokens).map (·.2)

/-- Any token. -/
def anything : Recogniser := List.tail?

def nothing : Recogniser := some

/-- The recogniser if it succeeds, and nothing otherwise. -/
def optional (r : Recogniser) : Recogniser := fun tokens =>
  some ((r tokens).getD tokens)

def andThen (r s : Recogniser) : Recogniser := fun tokens =>
  (r tokens).bind s

def orElse (r s : Recogniser) : Recogniser := fun tokens =>
  match r tokens with
  | some rest => some rest
  | none => s tokens

/-- If `first` succeeds the rest is up to `second`; otherwise all is up to
`other`. -/
def branch (first second other : Recogniser) : Recogniser := fun tokens =>
  match first tokens with
  | some rest => second rest
  | none => other tokens

/-- If `first` succeeds the rest is up to `second`; otherwise nothing is
consumed. -/
def following (first second : Recogniser) : Recogniser :=
  branch first second nothing

def sequence : List Recogniser → Recogniser
  | [], tokens => some tokens
  | r :: rs, tokens => (r tokens).bind (sequence rs)

/-- Repetitions of `r`, at most as many as there are steps. -/
def repeatFor (r : Recogniser) : (steps : List Token) → Recogniser
  | [], tokens => some tokens
  | _ :: steps, tokens =>
      match r tokens with
      | some rest => repeatFor r steps rest
      | none => some tokens

/-- Repetitions of `r`, of which each consumes a token. -/
def many (r : Recogniser) : Recogniser := fun tokens =>
  repeatFor r tokens tokens

/-- As long as `lead` succeeds, what follows it is up to `item`. -/
def eachFor (lead item : Recogniser) : (steps : List Token) → Recogniser
  | [], tokens => some tokens
  | _ :: steps, tokens =>
      match lead tokens with
      | some rest => (item rest).bind (eachFor lead item steps)
      | none => some tokens

/-- An item after every `lead`. -/
def each (lead item : Recogniser) : Recogniser := fun tokens =>
  eachFor lead item tokens tokens

/-- An item, and then `lead` and an item as long as `lead` is found. -/
def separated (lead item : Recogniser) : Recogniser :=
  andThen item (each lead item)

/-- Items with commas between them. -/
def commaList (item : Recogniser) : Recogniser := separated (mark ",") item

def parenthesised (r : Recogniser) : Recogniser :=
  sequence [mark "(", r, mark ")"]

/-- Names with points between them. -/
def objectName : Recogniser := separated (mark ".") nameOrText

/-- Names in parentheses. -/
def columnList : Recogniser := parenthesised (commaList nameOrText)

/-- Names in parentheses, or nothing. -/
def optionalColumnList : Recogniser :=
  following (mark "(") (andThen (commaList nameOrText) (mark ")"))

end Recogniser

end GovernedCatalog.Sql
