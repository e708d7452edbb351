import GovernedCatalog.Text.Character

/-!
# Classes of characters

A class is made of ranges by negation and by the operations on sets.  It may
disregard the case of letters.
-/

namespace GovernedCatalog

inductive CharClass where
  /-- The characters in some ranges of code points. -/
  | within (ranges : List (Nat × Nat))
  /-- The characters that are in a class in one of their cases. -/
  | anyCase (cls : CharClass)
  | complement (cls : CharClass)
  | union (left right : CharClass)
  | intersection (left right : CharClass)
  | difference (left right : CharClass)
  | symmetricDifference (left right : CharClass)
  deriving DecidableEq, Repr

namespace CharClass

/-- The character and the others that differ from it in their case alone; two
letters beyond ASCII are such a case of one of ASCII. -/
def caseVariants (c : Char) : List Char :=
  let kelvin := Char.ofNat 0x212A
  if c.toLower = 'k' ∨ c = kelvin then ['k', 'K', kelvin]
  else if c.toLower = 's' ∨ c = 'ſ' then ['s', 'S', 'ſ']
  else [c, c.toLower, c.toUpper]

def has : CharClass → Char → Bool
  | within ranges, c => Text.isWithin ranges c
  | anyCase cls, c => (caseVariants c).any fun v => has cls v
  | complement cls, c => !has cls c
  | union l r, c => has l c || has r c
  | intersection l r, c => has l c && has r c
  | difference l r, c => has l c && !has r c
  | symmetricDifference l r, c => has l c != has r c

def nothing : CharClass := within []

def single (c : Char) : CharClass := within [(c.toNat, c.toNat)]

def range (low high : Char) : CharClass := within [(low.toNat, high.toNat)]

def asciiDigits : List (Nat × Nat) := [('0'.toNat, '9'.toNat)]

def asciiLower : List (Nat × Nat) := [('a'.toNat, 'z'.toNat)]

def asciiUpper : List (Nat × Nat) := [('A'.toNat, 'Z'.toNat)]

def asciiWord : List (Nat × Nat) :=
  asciiDigits ++ asciiUpper ++ [('_'.toNat, '_'.toNat)] ++ asciiLower

def asciiBlanks : List (Nat × Nat) := [(0x09, 0x0D), (0x20, 0x20)]

def asciiPunctuation : List (Nat × Nat) :=
  [(0x21, 0x2F), (0x3A, 0x40), (0x5B, 0x60), (0x7B, 0x7E)]

/-- The classes of ASCII that have names. -/
def named? (name : String) : Option CharClass :=
  let letters := asciiUpper ++ asciiLower
  let ranges? : Option (List (Nat × Nat)) :=
    match name with
    | "alnum" => some (asciiDigits ++ letters)
    | "alpha" => some letters
    | "ascii" => some [(0x00, 0x7F)]
    | "blank" => some [(0x09, 0x09), (0x20, 0x20)]
    | "cntrl" => some [(0x00, 0x1F), (0x7F, 0x7F)]
    | "digit" => some asciiDigits
    | "graph" => some [(0x21, 0x7E)]
    | "lower" => some asciiLower
    | "print" => some [(0x20, 0x7E)]
    | "punct" => some asciiPunctuation
    | "space" => some asciiBlanks
    | "upper" => some asciiUpper
    | "word" => some asciiWord
    | "xdigit" =>
        some (asciiDigits ++ [('A'.toNat, 'F'.toNat), ('a'.toNat, 'f'.toNat)])
    | _ => none
  ranges?.map within

/-- Decimal digits of every script. -/
def digit : CharClass := within (asciiDigits ++ Text.decimalRanges)

/-- Letters and decimal digits of every script, marks that join them, and
accents that combine with them. -/
def word : CharClass :=
  within
    (asciiWord ++ Text.letterRanges ++ Text.decimalRanges ++
      [(0x300, 0x36F), (0x200C, 0x200D), (0x203F, 0x2040), (0x2054, 0x2054)])

/-- White space. -/
def blank : CharClass :=
  within
    (asciiBlanks ++
      [(0x85, 0x85), (0xA0, 0xA0), (0x1680, 0x1680), (0x2000, 0x200A),
        (0x2028, 0x2029), (0x202F, 0x202F), (0x205F, 0x205F),
        (0x3000, 0x3000)])

end CharClass

end GovernedCatalog
