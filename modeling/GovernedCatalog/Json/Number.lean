import GovernedCatalog.Decimal.Reading
import GovernedCatalog.Json.Basic

/-!
# Numbers in JSON texts

A number's digits are collected into a significand of 64 bits, separately on
both sides of the point; digits that do not fit only count towards the exponent.
A number with a fraction or an exponent is the significand scaled by a power of
ten, in floating point.
-/

namespace GovernedCatalog.Json

/-- The first number of more than 64 bits. -/
def significandBound : Nat := Nat.pow 2 64

/-- Whether a digit can be appended to a significand of 64 bits. -/
def fits (significand : Nat) (c : Char) : Bool :=
  10 * significand + Decimal.digitValue c < significandBound

/-- The digits that fit, and those from the first that does not. -/
def collect (significand : Nat) : List Char → Nat × List Char
  | [] => (significand, [])
  | c :: rest =>
      if fits significand c then
        collect (10 * significand + Decimal.digitValue c) rest
      else (significand, c :: rest)

def powerOfTen (n : Nat) : Float := Float.ofScientific 1 false n

/-- The value `x * 10 ^ exponent`; nothing when it is too large.  Exponents
below `-308` are reached in steps, of which a few make any value zero. -/
def scale : (steps : Nat) → (x : Float) → (exponent : Int) → Option Float
  | 0, x, _ => some x
  | steps + 1, x, exponent =>
      if exponent.natAbs ≤ 308 then
        if 0 ≤ exponent then
          let y := x * powerOfTen exponent.toNat
          if y.isInf then none else some y
        else some (x / powerOfTen exponent.natAbs)
      else if x == 0 then some x
      else if 0 ≤ exponent then none
      else scale steps (x / powerOfTen 308) (exponent + 308)

def scaled (negative : Bool) (significand : Nat) (exponent : Int) :
    Option Json :=
  (scale 8 (UInt64.ofNat significand).toFloat exponent).map fun x =>
    real (if negative then -x else x)

/-- A whole number, which is kept as such when it is in range. -/
def whole (negative : Bool) (significand : Nat) : Json :=
  if !negative then int significand
  else if significand = 0 ∨ significandBound < 2 * significand then
    real (-(UInt64.ofNat significand).toFloat)
  else int (-(significand : Int))

/-- An exponent of at most 31 bits; larger ones stand for the largest. -/
def clampExponent (digits : List Char) : Int :=
  min (Decimal.natOfDigits digits) 2147483647

/-- Reads a number whose sign has been consumed. -/
def readUnsigned (negative : Bool) (cs : List Char) :
    Option (Json × List Char) :=
  let digits := cs.takeWhile Char.isDigit
  let afterDigits := cs.dropWhile Char.isDigit
  let leadingZero := digits.head? = some '0' && 1 < digits.length
  if digits.isEmpty || leadingZero then none
  else
    let (significand, dropped) := collect 0 digits
    let readFraction : Option (Nat × Int × Bool × List Char) :=
      match afterDigits with
      | '.' :: rest =>
          let fraction := rest.takeWhile Char.isDigit
          if fraction.isEmpty then none
          else
            let (longer, lost) := collect significand fraction
            let kept : Int := fraction.length - lost.length
            some (longer, dropped.length - kept, true,
              rest.dropWhile Char.isDigit)
      | rest => some (significand, dropped.length, !dropped.isEmpty, rest)
    readFraction.bind fun (significand, exponent, isReal, rest) =>
      match rest with
      | c :: tail =>
          if c = 'e' ∨ c = 'E' then
            let (down, digits) := Decimal.takeSign tail
            let mark := digits.takeWhile Char.isDigit
            if mark.isEmpty then none
            else
              let e := clampExponent mark
              (scaled negative significand
                (if down then exponent - e else exponent + e)).map
                  fun j => (j, digits.dropWhile Char.isDigit)
          else if isReal then
            (scaled negative significand exponent).map fun j => (j, rest)
          else some (whole negative significand, rest)
      | [] =>
          if isReal then
            (scaled negative significand exponent).map fun j => (j, [])
          else some (whole negative significand, [])

def readNumber : List Char → Option (Json × List Char)
  | '-' :: rest => readUnsigned true rest
  | cs => readUnsigned false cs

end GovernedCatalog.Json
