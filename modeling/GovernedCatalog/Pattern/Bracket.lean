import GovernedCatalog.Pattern.Basic
import GovernedCatalog.Text.Character
import GovernedCatalog.Text.Hexadecimal

/-!
# Escapes and brackets in patterns

The parts of a pattern that stand for one of several characters.

## Escapes

A backslash takes away the meaning of a mark, and gives one to letters: control
characters, code points, classes and conditions on a position.
-/

namespace GovernedCatalog.Pattern

/-- How the parts of a pattern are read. -/
structure Mode where
  /-- Letters match in both cases. -/
  anyCase : Bool
  /-- The anchors are those of a line. -/
  lineAnchors : Bool
  /-- A point matches the end of a line too. -/
  pointMatchesAll : Bool
  /-- White space and comments have no meaning. -/
  spaced : Bool
  /-- The names that groups have so far. -/
  names : List (List Char)

def Mode.standard : Mode := ⟨false, false, false, false, []⟩

/-- The class as it is meant in a mode. -/
def Mode.leaf (mode : Mode) (cls : CharClass) : CharClass :=
  if mode.anyCase then .anyCase cls else cls

/-- Passes over white space and comments. -/
def skipSpaced : (inComment : Bool) → List Char → List Char
  | _, [] => []
  | true, c :: rest => skipSpaced (c ≠ '\n') rest
  | false, c :: rest =>
      if c = '#' then skipSpaced true rest
      else if Text.isBlank c then skipSpaced false rest
      else c :: rest

/-- Passes over what has no meaning in a mode. -/
def Mode.skip (mode : Mode) (cs : List Char) : List Char :=
  if mode.spaced then skipSpaced false cs else cs

inductive Escape where
  | char (c : Char)
  | cls (cls : CharClass)
  | look (condition : Look)

/-- The character of a code point in hexadecimal digits: so many of them, or
any number between braces. -/
def readCodePoint (width : Nat) : List Char → Option (Char × List Char)
  | '\x7b' :: rest =>
      let digits := rest.takeWhile Text.isHexDigit
      match rest.dropWhile Text.isHexDigit with
      | '\x7d' :: tail =>
          if digits.isEmpty then none
          else (Text.scalar? (Text.natOfHex digits)).map fun c => (c, tail)
      | _ => none
  | cs =>
      let digits := (cs.take width).takeWhile Text.isHexDigit
      if digits.length < width then none
      else
        (Text.scalar? (Text.natOfHex digits)).map fun c => (c, cs.drop width)

/-- Reads an escape after its backslash. -/
def readEscape : List Char → Option (Escape × List Char)
  | [] => none
  | c :: rest =>
      match c with
      | 'x' => (readCodePoint 2 rest).map fun r => (.char r.1, r.2)
      | 'u' => (readCodePoint 4 rest).map fun r => (.char r.1, r.2)
      | 'U' => (readCodePoint 8 rest).map fun r => (.char r.1, r.2)
      | 'd' => some (.cls .digit, rest)
      | 'D' => some (.cls (.complement .digit), rest)
      | 'w' => some (.cls .word, rest)
      | 'W' => some (.cls (.complement .word), rest)
      | 's' => some (.cls .blank, rest)
      | 'S' => some (.cls (.complement .blank), rest)
      | 'a' => some (.char '\x07', rest)
      | 'f' => some (.char '\x0C', rest)
      | 't' => some (.char '\t', rest)
      | 'n' => some (.char '\n', rest)
      | 'r' => some (.char '\r', rest)
      | 'v' => some (.char '\x0B', rest)
      | 'A' => some (.look .textStart, rest)
      | 'z' => some (.look .textEnd, rest)
      | 'b' => some (.look .wordBoundary, rest)
      | 'B' => some (.look .insideWord, rest)
      | '<' => some (.look .wordStart, rest)
      | '>' => some (.look .wordEnd, rest)
      | _ =>
          if c.toNat < 0x80 ∧ !c.isAlphanum then some (.char c, rest)
          else none

/-!
## Classes in brackets

A class in brackets lists characters, ranges and other classes.  Two lists may
be joined by an operation on sets, which applies to all that stands before it.
-/

/-- Some items of a class, with the greatest depth of one of them and their
number. -/
structure Items where
  cls : CharClass
  depth : Nat
  count : Nat

def Items.nothing : Items := ⟨.nothing, 0, 0⟩

def Items.add (items : Items) (cls : CharClass) (depth : Nat) : Items :=
  ⟨if items.count = 0 then cls else .union items.cls cls,
    max items.depth depth, items.count + 1⟩

/-- The depth of the items as one set. -/
def Items.setDepth (items : Items) : Nat :=
  if items.count < 2 then items.depth else items.depth + 1

/-- An operation with its left operand and the depth of that. -/
structure PendingOperation where
  apply : CharClass → CharClass → CharClass
  left : CharClass
  depth : Nat

/-- The items as the right operand of an operation, if there is one. -/
def Items.finish (items : Items) :
    Option PendingOperation → CharClass × Nat
  | none => (items.cls, items.setDepth)
  | some p => (p.apply p.left items.cls, max p.depth items.setDepth + 1)

/-- Reads a character or an escape of a class. -/
def readClassItem : List Char → Option (Escape × List Char)
  | [] => none
  | '\\' :: rest => readEscape rest
  | c :: rest => some (.char c, rest)

/-- Reads a character, a range or a class without brackets. -/
def readRange (mode : Mode) (cs : List Char) :
    Option (CharClass × List Char) := do
  let (item, rest) ← readClassItem cs
  let rest := mode.skip rest
  let bounds? :=
    match rest with
    | '-' :: rest' =>
        let after := mode.skip rest'
        if after.head? = some ']' ∨ after.head? = some '-' then none
        else some after
    | _ => none
  match item, bounds? with
  | .look _, _ => none
  | .cls cls, none => some (mode.leaf cls, rest)
  | .char c, none => some (mode.leaf (.single c), rest)
  | .cls _, some _ => none
  | .char low, some after =>
      match ← readClassItem after with
      | (.char high, tail) =>
          if high < low then none
          else some (mode.leaf (.range low high), tail)
      | _ => none

/-- Reads the name of a class of ASCII after its opening bracket. -/
def readNamedClass? : List Char → Option (CharClass × List Char)
  | ':' :: cs =>
      let (negated, cs) :=
        match cs with
        | '^' :: rest => (true, rest)
        | _ => (false, cs)
      match cs.dropWhile (· ≠ ':') with
      | ':' :: ']' :: rest =>
          (CharClass.named? (String.ofList (cs.takeWhile (· ≠ ':')))).map
            fun cls => (if negated then .complement cls else cls, rest)
      | _ => none
  | _ => none

/-- The dashes at the beginning of a class, which stand for themselves. -/
def readDashes (mode : Mode) : (steps : Nat) → Items → List Char →
    Items × List Char
  | steps + 1, items, '-' :: rest =>
      readDashes mode steps (items.add (.single '-') 0) (mode.skip rest)
  | _, items, cs => (items, cs)

mutual

/-- Reads a class after its opening bracket, with its depth.  A closing bracket
that stands first belongs to the class. -/
def readClass (mode : Mode) : (steps : Nat) → List Char →
    Option (CharClass × Nat × List Char)
  | 0, _ => none
  | steps + 1, cs => do
      let (negated, cs) :=
        match mode.skip cs with
        | '^' :: rest => (true, mode.skip rest)
        | cs => (false, cs)
      let (items, cs) := readDashes mode cs.length .nothing cs
      let (items, cs) :=
        match items.count, cs with
        | 0, ']' :: rest => (items.add (.single ']') 0, rest)
        | _, _ => (items, cs)
      let (cls, depth, rest) ← readItems mode steps none items cs
      return (if negated then .complement cls else cls, depth + 1, rest)

/-- Reads items up to the closing bracket. -/
def readItems (mode : Mode) : (steps : Nat) → Option PendingOperation →
    Items → List Char → Option (CharClass × Nat × List Char)
  | 0, _, _, _ => none
  | steps + 1, pending, items, cs =>
      let operation (apply : CharClass → CharClass → CharClass)
          (rest : List Char) :=
        let (left, depth) := items.finish pending
        readItems mode steps (some ⟨apply, left, depth⟩) .nothing rest
      match mode.skip cs with
      | [] => none
      | ']' :: rest =>
          let (cls, depth) := items.finish pending
          some (cls, depth, rest)
      | '&' :: '&' :: rest => operation .intersection rest
      | '-' :: '-' :: rest => operation .difference rest
      | '~' :: '~' :: rest => operation .symmetricDifference rest
      | '[' :: rest =>
          match readNamedClass? rest with
          | some (cls, tail) =>
              readItems mode steps pending (items.add (mode.leaf cls) 0) tail
          | none => do
              let (cls, depth, tail) ← readClass mode steps rest
              readItems mode steps pending (items.add cls depth) tail
      | cs => do
          let (cls, tail) ← readRange mode cs
          readItems mode steps pending (items.add cls 0) tail

end

end GovernedCatalog.Pattern
