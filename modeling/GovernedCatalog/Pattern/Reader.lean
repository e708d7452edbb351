import GovernedCatalog.Decimal.Reading
import GovernedCatalog.Pattern.Bracket

/-!
# Reading patterns

Letters stand for themselves; `^` and `$` are the ends of the text, `.` any
character, brackets enclose classes and parentheses groups, `|` separates
alternatives, and `*`, `+`, `?` and counts in braces repeat what stands before
them.  A text that breaks these rules, or whose constructs nest too deep or are
repeated too often, is no pattern.
-/

namespace GovernedCatalog.Pattern

/-- A part of a pattern, with the depth of its constructs and its size. -/
structure Part where
  pattern : Pattern
  depth : Nat
  size : Nat

namespace Part

/-- How deeply the constructs of a pattern may nest. -/
def maxDepth : Nat := 250

/-- How large a pattern may be once its repetitions are written out. -/
def maxSize : Nat := 50000

def empty : Part := ⟨.empty, 0, 1⟩

def look (condition : Look) : Part := ⟨.look condition, 0, 1⟩

def one (cls : CharClass) (depth : Nat) : Part := ⟨.one cls, depth, 1⟩

/-- A group or a repetition around a part. -/
def wrap (part : Part) (pattern : Pattern) (size : Nat) : Option Part :=
  if part.depth < maxDepth ∧ size ≤ maxSize then
    some ⟨pattern, part.depth + 1, size⟩
  else none

/-- Parts joined by an operation; a single part is left as it is. -/
def join (op : Pattern → Pattern → Pattern) : List Part → Part
  | [] => empty
  | [part] => part
  | part :: parts =>
      let rest := join op parts
      let depth :=
        match parts with
        | [_] => max part.depth rest.depth + 1
        | _ => max (part.depth + 1) rest.depth
      ⟨op part.pattern rest.pattern, depth, part.size + rest.size⟩

end Part

/-- `count` copies, one after the other, and then `last`. -/
def copies (p last : Pattern) : (count : Nat) → Pattern
  | 0 => last
  | count + 1 => andThen p (copies p last count)

/-- At most `count` copies. -/
def upTo (p : Pattern) : (count : Nat) → Pattern
  | 0 => empty
  | count + 1 => optional (andThen p (upTo p count))

/-- At least `least` and at most `most` copies of a part. -/
def Part.repeated (part : Part) (least : Nat) (most : Option Nat) :
    Option Part :=
  let size := max 1 part.size * max 1 ((most.getD least) + 1)
  if size > maxSize then none
  else
    let last :=
      match most with
      | some most => upTo part.pattern (most - least)
      | none => star part.pattern
    part.wrap (copies part.pattern last least) size

/-- Reads a number of at most 32 bits in a count, with blanks around it; there
may be none. -/
def readNumber (cs : List Char) : Option (Option Nat × List Char) :=
  let cs := cs.dropWhile Text.isBlank
  let n := Decimal.natOfDigits (cs.takeWhile Char.isDigit)
  let rest := (cs.dropWhile Char.isDigit).dropWhile Text.isBlank
  if n < Nat.pow 2 32 then
    some (if (cs.takeWhile Char.isDigit).isEmpty then none else some n, rest)
  else none

/-- Reads a count after its opening brace. -/
def readCount (mode : Mode) (part : Part) (cs : List Char) :
    Option (Part × List Char) := do
  let (least?, rest) ← readNumber (mode.skip cs)
  let least ← least?
  match rest with
  | '\x7d' :: tail => return (← part.repeated least (some least), tail)
  | ',' :: rest' => do
      match ← readNumber (mode.skip rest') with
      | (most?, '\x7d' :: tail) =>
          match most? with
          | none => return (← part.repeated least none, tail)
          | some most =>
              if most < least then none
              else return (← part.repeated least (some most), tail)
      | _ => none
  | _ => none

/-- A repetition may be marked to prefer fewer copies, which does not change
what it matches. -/
def skipLazy : List Char → List Char
  | '?' :: rest => rest
  | cs => cs

/-- Reads the repetitions that follow a part of a pattern. -/
def readRepeats (mode : Mode) : (steps : Nat) → Part → List Char →
    Option (Part × List Char)
  | 0, part, cs => some (part, cs)
  | steps + 1, part, cs =>
      let again (pattern : Pattern) (size : Nat) (rest : List Char) := do
        readRepeats mode steps (← part.wrap pattern size) (skipLazy rest)
      match mode.skip cs with
      | '*' :: rest => again (star part.pattern) part.size rest
      | '+' :: rest => again (plus part.pattern) (2 * part.size) rest
      | '?' :: rest => again (optional part.pattern) part.size rest
      | '\x7b' :: rest => do
          let (counted, rest') ← readCount mode part rest
          readRepeats mode steps counted (skipLazy (mode.skip rest'))
      | cs => some (part, cs)

/-- Reads the name of a group up to its closing mark. -/
def readGroupName (cs : List Char) : Option (List Char × List Char) :=
  let isFirst (c : Char) := Text.isLetter c || c = '_'
  let isLater (c : Char) :=
    isFirst c || Text.isNumeral c || c = '.' || c = '[' || c = ']'
  let name := cs.takeWhile isLater
  match name.head?.all isFirst, name, cs.dropWhile isLater with
  | true, _ :: _, '>' :: rest => some (name, rest)
  | _, _, _ => none

/-- A mode after a mark has been set or taken back.  Some marks only change
which of several matches is preferred. -/
def Mode.withMark (mode : Mode) (on : Bool) (c : Char) : Option Mode :=
  match c with
  | 'i' => some { mode with anyCase := on }
  | 'm' => some { mode with lineAnchors := on }
  | 's' => some { mode with pointMatchesAll := on }
  | 'x' => some { mode with spaced := on }
  | 'U' | 'R' | 'u' => some mode
  | _ => none

/-- Reads the marks of a group up to the character that ends them.  No mark
stands twice, and a dash, which takes back those after it, not at the end. -/
def readMarks (seen : List Char) (mode : Mode) :
    List Char → Option (Mode × Char × List Char)
  | [] => none
  | c :: rest =>
      if c = ':' ∨ c = ')' then
        if seen.head? = some '-' ∨ (c = ')' ∧ seen.isEmpty) then none
        else some (mode, c, rest)
      else if seen.contains c then none
      else if c = '-' then readMarks (c :: seen) mode rest
      else do
        readMarks (c :: seen) (← mode.withMark (!seen.contains '-') c) rest

/-- What an opening parenthesis begins. -/
inductive Opening where
  /-- A group that is read in a mode. -/
  | group (mode : Mode)
  /-- Marks for all that follows in the group around. -/
  | marks (mode : Mode)

/-- Reads the beginning of a group after its opening parenthesis. -/
def readOpening (mode : Mode) (cs : List Char) :
    Option (Opening × List Char) :=
  let named (rest : List Char) : Option (Opening × List Char) := do
    let (name, tail) ← readGroupName rest
    if mode.names.contains name then none
    else return (.group { mode with names := name :: mode.names }, tail)
  match cs with
  | '?' :: 'P' :: '<' :: rest => named rest
  | '?' :: '<' :: rest => named rest
  | '?' :: rest => do
      match ← readMarks [] mode rest with
      | (inner, ':', tail) => return (.group inner, tail)
      | (inner, _, tail) => return (.marks inner, tail)
  | _ => some (.group mode, cs)

mutual

/-- Reads alternatives, up to the end or a closing parenthesis. -/
def readAlternatives : (steps : Nat) → Mode → List Char →
    Option (List Part × Mode × List Char)
  | 0, _, _ => none
  | steps + 1, mode, cs => do
      let (parts, mode, rest) ← readParts steps mode cs
      let first := Part.join andThen parts
      match rest with
      | '|' :: rest' =>
          let (others, mode, tail) ← readAlternatives steps mode rest'
          return (first :: others, mode, tail)
      | _ => return ([first], mode, rest)

/-- Reads parts that follow each other. -/
def readParts : (steps : Nat) → Mode → List Char →
    Option (List Part × Mode × List Char)
  | 0, _, _ => none
  | steps + 1, mode, cs =>
      match mode.skip cs with
      | [] => some ([], mode, [])
      | '|' :: rest => some ([], mode, '|' :: rest)
      | ')' :: rest => some ([], mode, ')' :: rest)
      | cs => do
          let (part?, mode, rest) ← readPart steps mode cs
          let (part, rest) ←
            match part? with
            | some part => readRepeats mode (rest.length + 1) part rest
            | none => some (Part.empty, rest)
          let (parts, mode, tail) ← readParts steps mode rest
          return (part :: parts, mode, tail)

/-- Reads one part: a character, a class, an anchor or a group, or the marks
for those that follow, which cannot be repeated. -/
def readPart : (steps : Nat) → Mode → List Char →
    Option (Option Part × Mode × List Char)
  | 0, _, _ => none
  | steps + 1, mode, cs =>
      let single (part : Part) (rest : List Char) :=
        some (some part, mode, rest)
      match cs with
      | [] => none
      | '(' :: rest => do
          match ← readOpening mode (mode.skip rest) with
          | (.marks inner, tail) => return (none, inner, tail)
          | (.group inner, tail) =>
              let (parts, last, rest') ← readAlternatives steps inner tail
              let content := Part.join alt parts
              let group ← content.wrap content.pattern content.size
              match rest' with
              | ')' :: tail =>
                  return (some group, { mode with names := last.names }, tail)
              | _ => none
      | '[' :: rest => do
          let (cls, depth, tail) ← readClass mode (2 * cs.length) rest
          single (.one cls depth) tail
      | '.' :: rest =>
          let lineEnd := CharClass.single '\n'
          single
            (.one
              (.complement
                (if mode.pointMatchesAll then .nothing else lineEnd)) 0)
            rest
      | '^' :: rest =>
          single (.look (if mode.lineAnchors then .lineStart else .textStart))
            rest
      | '$' :: rest =>
          single (.look (if mode.lineAnchors then .lineEnd else .textEnd)) rest
      | '\\' :: rest => do
          match ← readEscape rest with
          | (.char c, tail) => single (.one (mode.leaf (.single c)) 0) tail
          | (.cls cls, tail) => single (.one (mode.leaf cls) 0) tail
          | (.look condition, tail) => single (.look condition) tail
      | c :: rest =>
          if ['*', '+', '?', '\x7b', ')', '|'].contains c then none
          else single (.one (mode.leaf (.single c)) 0) rest

end

/-- The pattern written by a text. -/
def ofText? (text : String) : Option Pattern :=
  let cs := text.toList
  match readAlternatives (3 * cs.length + 3) .standard cs with
  | some (parts, _, []) =>
      let part := Part.join alt parts
      if part.depth ≤ Part.maxDepth ∧ part.size ≤ Part.maxSize then
        some part.pattern
      else none
  | _ => none

end GovernedCatalog.Pattern
