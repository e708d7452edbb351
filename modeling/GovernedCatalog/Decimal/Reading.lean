import GovernedCatalog.Text.Character

/-!
# Reading numbers

Whole numbers of 64 bits with a sign, and floating-point numbers in the usual
notations.  A floating-point text denotes the value nearest to it.
-/

namespace GovernedCatalog.Decimal

def digitValue (c : Char) : Nat := c.toNat - '0'.toNat

/-- The number that a list of digits denotes. -/
def natOfDigits (cs : List Char) : Nat :=
  cs.foldl (fun n c => 10 * n + digitValue c) 0

/-- A text's optional sign: whether it is a minus, and the rest. -/
def takeSign : List Char → Bool × List Char
  | '-' :: rest => (true, rest)
  | '+' :: rest => (false, rest)
  | cs => (false, cs)

/-- Whether a whole number has 64 bits with a sign. -/
def fitsInt64 (v : Int) : Bool :=
  -9223372036854775808 ≤ v && v ≤ 9223372036854775807

/-- A signed whole number in the range of 64 bits. -/
def readInt? (cs : List Char) : Option Int :=
  let (negative, digits) := takeSign cs
  if digits.isEmpty || !digits.all Char.isDigit then none
  else
    let n : Int := natOfDigits digits
    let v := if negative then -n else n
    if fitsInt64 v then some v else none

/-- The value nearest to `mantissa * 10 ^ exponent`.  `length` is the number
of digits of the mantissa; results out of range are infinite or zero. -/
def nearestFloat (mantissa : Nat) (length : Nat) (exponent : Int) : Float :=
  if mantissa = 0 then 0
  else if 310 < (length : Int) + exponent then Float.ofScientific 1 false 400
  else if (length : Int) + exponent < -330 then 0
  else if exponent < 0 then Float.ofScientific mantissa true (-exponent).toNat
  else Float.ofScientific mantissa false exponent.toNat

/-- An exponent mark and its digits, or nothing. -/
def readExponent? : List Char → Option Int
  | [] => some 0
  | c :: rest =>
      if c = 'e' ∨ c = 'E' then
        let (negative, digits) := takeSign rest
        if digits.isEmpty || !digits.all Char.isDigit then none
        else
          let n : Int := natOfDigits digits
          some (if negative then -n else n)
      else none

def readUnsigned? (cs : List Char) : Option Float :=
  let name := String.ofList (cs.map Char.toLower)
  if name = "inf" ∨ name = "infinity" then
    some (Float.ofScientific 1 false 400)
  else if name = "nan" then some (0.0 / 0.0)
  else
    let whole := cs.takeWhile Char.isDigit
    let afterWhole := cs.dropWhile Char.isDigit
    let (fraction, tail) :=
      match afterWhole with
      | '.' :: rest => (rest.takeWhile Char.isDigit, rest.dropWhile Char.isDigit)
      | rest => ([], rest)
    if whole.isEmpty && fraction.isEmpty then none
    else
      (readExponent? tail).map fun e =>
        let digits := (whole ++ fraction).dropWhile (· = '0')
        nearestFloat (natOfDigits digits) digits.length (e - fraction.length)

/-- A floating-point number: digits with an optional point and exponent, or
the name of an infinity or of NaN in any case. -/
def readFloat? (cs : List Char) : Option Float :=
  let (negative, rest) := takeSign cs
  (readUnsigned? rest).map fun x => if negative then -x else x

end GovernedCatalog.Decimal
