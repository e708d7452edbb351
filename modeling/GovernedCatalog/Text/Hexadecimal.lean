/-!
# Hexadecimal digits

Numbers in base sixteen, written in lower case and read in either case, and the
characters that they name.
-/

namespace GovernedCatalog.Text

def hexDigits (n : Nat) : List Char := Nat.toDigits 16 n

def hexValue? (c : Char) : Option Nat :=
  if c.isDigit then some (c.toNat - '0'.toNat)
  else if 'a' ≤ c ∧ c ≤ 'f' then some (c.toNat - 'a'.toNat + 10)
  else if 'A' ≤ c ∧ c ≤ 'F' then some (c.toNat - 'A'.toNat + 10)
  else none

def isHexDigit (c : Char) : Bool := (hexValue? c).isSome

/-- The number of some hexadecimal digits; other characters count as zero. -/
def natOfHex (cs : List Char) : Nat :=
  cs.foldl (fun n c => 16 * n + (hexValue? c).getD 0) 0

/-- The number of four hexadecimal digits. -/
def hex4? (a b c d : Char) : Option Nat :=
  let digits := [a, b, c, d]
  if digits.all isHexDigit then some (natOfHex digits) else none

/-- The character with a number, if it is one of a character. -/
def scalar? (n : Nat) : Option Char :=
  if n.isValidChar then some (Char.ofNat n) else none

end GovernedCatalog.Text
