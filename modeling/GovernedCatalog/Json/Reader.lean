import GovernedCatalog.Json.Number
import GovernedCatalog.Text.Hexadecimal

/-!
# Reading JSON texts

A text is one value with white space around it.  Containers nest at most 127
deep, and the fields of an object stay in the order of the text.
-/

namespace GovernedCatalog.Json

def isSpace (c : Char) : Bool :=
  c = ' ' || c = '\n' || c = '\t' || c = '\r'

def skipSpace (cs : List Char) : List Char := cs.dropWhile isSpace

def simpleEscape? (c : Char) : Option Char :=
  match c with
  | '"' => some '"'
  | '\\' => some '\\'
  | '/' => some '/'
  | 'b' => some (Char.ofNat 0x08)
  | 'f' => some (Char.ofNat 0x0C)
  | 'n' => some '\n'
  | 'r' => some '\r'
  | 't' => some '\t'
  | _ => none

/-- Reads a string whose opening quote has been consumed.  An escaped high
surrogate is completed by an escaped low one; neither stands alone. -/
def readString : List Char → Option (List Char × List Char)
  | [] => none
  | '"' :: rest => some ([], rest)
  | '\\' :: 'u' :: a :: b :: c :: d :: rest => do
      let n ← Text.hex4? a b c d
      if 0xDC00 ≤ n ∧ n ≤ 0xDFFF then none
      else if 0xD800 ≤ n ∧ n ≤ 0xDBFF then
        match rest with
        | '\\' :: 'u' :: a' :: b' :: c' :: d' :: rest' => do
            let low ← Text.hex4? a' b' c' d'
            if 0xDC00 ≤ low ∧ low ≤ 0xDFFF then
              let point := 0x10000 + (n - 0xD800) * 0x400 + (low - 0xDC00)
              let (cs, tail) ← readString rest'
              return (Char.ofNat point :: cs, tail)
            else none
        | _ => none
      else
        let (cs, tail) ← readString rest
        return (Char.ofNat n :: cs, tail)
  | '\\' :: c :: rest => do
      let e ← simpleEscape? c
      let (cs, tail) ← readString rest
      return (e :: cs, tail)
  | c :: rest => do
      if c = '\\' ∨ c.toNat < 0x20 then none
      else
        let (cs, tail) ← readString rest
        return (c :: cs, tail)

mutual

/-- Reads a value inside containers that may nest `depth` deeper.  Every step
consumes a character, so the length of the text bounds the steps. -/
def readValue : (steps depth : Nat) → List Char → Option (Json × List Char)
  | 0, _, _ => none
  | steps + 1, depth, cs =>
      match skipSpace cs with
      | 'n' :: 'u' :: 'l' :: 'l' :: rest => some (null, rest)
      | 't' :: 'r' :: 'u' :: 'e' :: rest => some (bool true, rest)
      | 'f' :: 'a' :: 'l' :: 's' :: 'e' :: rest => some (bool false, rest)
      | '"' :: rest =>
          (readString rest).map fun r => (str (String.ofList r.1), r.2)
      | '[' :: rest =>
          match depth with
          | 0 => none
          | depth + 1 =>
              match skipSpace rest with
              | ']' :: rest' => some (arr [], rest')
              | rest' =>
                  (readItems steps depth rest').map fun r => (arr r.1, r.2)
      | '\x7b' :: rest =>
          match depth with
          | 0 => none
          | depth + 1 =>
              match skipSpace rest with
              | '\x7d' :: rest' => some (obj [], rest')
              | rest' =>
                  (readFields steps depth rest').map fun r => (obj r.1, r.2)
      | rest => readNumber rest

/-- Reads the items of an array up to its closing bracket. -/
def readItems : (steps depth : Nat) → List Char →
    Option (List Json × List Char)
  | 0, _, _ => none
  | steps + 1, depth, cs => do
      let (item, rest) ← readValue steps depth cs
      match skipSpace rest with
      | ',' :: rest' =>
          let (items, tail) ← readItems steps depth rest'
          return (item :: items, tail)
      | ']' :: rest' => return ([item], rest')
      | _ => none

/-- Reads the fields of an object up to its closing brace. -/
def readFields : (steps depth : Nat) → List Char →
    Option (List (String × Json) × List Char)
  | 0, _, _ => none
  | steps + 1, depth, cs =>
      match skipSpace cs with
      | '"' :: rest => do
          let (key, afterKey) ← readString rest
          match skipSpace afterKey with
          | ':' :: afterColon =>
              let (value, afterValue) ← readValue steps depth afterColon
              let field := (String.ofList key, value)
              match skipSpace afterValue with
              | ',' :: rest' =>
                  let (fields, tail) ← readFields steps depth rest'
                  return (field :: fields, tail)
              | '\x7d' :: rest' => return ([field], rest')
              | _ => none
          | _ => none
      | _ => none

end

/-- The deepest nesting of containers in a text. -/
def maxDepth : Nat := 127

/-- Reads a whole text, with the fields of objects as they stand in it. -/
def ofText? (text : String) : Option Json :=
  let cs := text.toList
  match readValue (cs.length + 1) maxDepth cs with
  | some (j, rest) => if (skipSpace rest).isEmpty then some j else none
  | none => none

/-- Reads a whole text into a canonical value. -/
def read? (text : String) : Option Json := (ofText? text).map canonical

end GovernedCatalog.Json
