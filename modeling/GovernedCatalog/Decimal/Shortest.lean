/-!
# Shortest decimal digits

A positive binary64 value is `mantissa * 2 ^ exponent`.  Every decimal number
strictly closer to it than to its neighbours reads back as the same value; a
number half way to a neighbour does so exactly when the mantissa is even.
`digitsOf` finds the fewest digits that read back and, of those, the nearest.
-/

namespace GovernedCatalog.Decimal

/-- The value `mantissa * 2 ^ exponent`. -/
structure Binary where
  mantissa : Nat
  exponent : Int

/-- Significant digits `d₁ d₂ …` of the number `0.d₁d₂… * 10 ^ point`. -/
structure Digits where
  digits : List Char
  point : Int

/-- Which of two equally near digit strings is taken. -/
inductive Tie
  | even
  | up
  deriving DecidableEq

/-- The first number that takes more than the 52 bits of a fraction. -/
def fractionBound : Nat := Nat.pow 2 52

/-- A finite value without its sign. -/
def Binary.ofBits (bits : UInt64) : Binary :=
  let fraction : Nat := bits.toNat % fractionBound
  let field : Nat := bits.toNat / fractionBound % 2048
  if field = 0 then ⟨fraction, -1074⟩
  else ⟨fraction + fractionBound, (field : Int) - 1075⟩

/-- A non-negative rational number. -/
structure Ratio where
  num : Nat
  den : Nat

def Ratio.mulPow (r : Ratio) (base : Nat) (e : Int) : Ratio :=
  if e < 0 then ⟨r.num, r.den * base.pow (-e).toNat⟩
  else ⟨r.num * base.pow e.toNat, r.den⟩

def Ratio.lt (r s : Ratio) : Bool := r.num * s.den < s.num * r.den

def Binary.toRatio (b : Binary) : Ratio :=
  (⟨b.mantissa, 1⟩ : Ratio).mulPow 2 b.exponent

/-- The midpoints between a value and its two neighbours.  The gap below a
power of two is half the gap above it. -/
def Binary.midpoints (b : Binary) : Ratio × Ratio :=
  let below :=
    if b.mantissa = fractionBound ∧ -1074 < b.exponent then 4 * b.mantissa - 1
    else 4 * b.mantissa - 2
  ((⟨below, 1⟩ : Ratio).mulPow 2 (b.exponent - 2),
    (⟨4 * b.mantissa + 2, 1⟩ : Ratio).mulPow 2 (b.exponent - 2))

/-- Whether a decimal number reads back as the value. -/
def Binary.readsBack (b : Binary) (r : Ratio) : Bool :=
  let (low, high) := b.midpoints
  if b.mantissa % 2 = 0 then !r.lt low && !high.lt r
  else low.lt r && r.lt high

/-- The number of decimal digits of the integral part is `point`: the value
lies in `[10 ^ (point - 1), 10 ^ point)`. -/
def Binary.point (b : Binary) : Int :=
  let r := (b.toRatio).mulPow 10 330
  ((Nat.toDigits 10 (r.num / r.den)).length : Int) - 330

/-- The nearest of the two neighbours of the value among the multiples of
`10 ^ (point - count)` that read back, as a multiple. -/
def Binary.nearest? (b : Binary) (tie : Tie) (point : Int) (count : Nat) :
    Option Nat :=
  let scale := point - count
  let r := (b.toRatio).mulPow 10 (-scale)
  let low := r.num / r.den
  let rest := r.num % r.den
  let fits (d : Nat) := b.readsBack ((⟨d, 1⟩ : Ratio).mulPow 10 scale)
  match fits low, rest != 0 && fits (low + 1) with
  | true, false => some low
  | false, true => some (low + 1)
  | false, false => none
  | true, true =>
      if 2 * rest < r.den then some low
      else if r.den < 2 * rest then some (low + 1)
      else if tie = .even ∧ low % 2 = 0 then some low
      else some (low + 1)

/-- The first count of digits, from `count` on, that has a number reading
back. -/
def Binary.search (b : Binary) (tie : Tie) (point : Int) :
    (remaining count : Nat) → Digits
  | 0, _ => ⟨[], point⟩
  | remaining + 1, count =>
      match b.nearest? tie point count with
      | none => b.search tie point remaining (count + 1)
      | some d =>
          let digits := Nat.toDigits 10 d
          let carry : Int := digits.length - count
          let kept := (digits.reverse.dropWhile (· = '0')).reverse
          ⟨kept, point + carry⟩

/-- The shortest digits of a positive value; seventeen always suffice. -/
def Binary.digitsOf (b : Binary) (tie : Tie) : Digits :=
  b.search tie b.point 17 1

/-! ## Layouts of floating-point numbers

A layout says where a number is written out in full, how its exponent looks
otherwise, and which digits a tie takes. -/

structure Layout where
  /-- Numbers `0.d₁d₂… * 10 ^ point` with `point` in this range are written out
  in full. -/
  leastPoint : Int
  greatestPoint : Int
  /-- The sign of an exponent that is not negative. -/
  exponentSign : String
  tie : Tie

namespace Layout

def plain (d : Digits) : List Char :=
  if d.point ≤ 0 then
    '0' :: '.' :: (List.replicate (-d.point).toNat '0' ++ d.digits)
  else
    let whole := d.point.toNat
    if d.digits.length ≤ whole then
      d.digits ++ List.replicate (whole - d.digits.length) '0' ++ ['.', '0']
    else d.digits.take whole ++ '.' :: d.digits.drop whole

def scientific (layout : Layout) (d : Digits) : List Char :=
  let exponent := d.point - 1
  let mark :=
    if exponent < 0 then '-' :: Nat.toDigits 10 (-exponent).toNat
    else layout.exponentSign.toList ++ Nat.toDigits 10 exponent.toNat
  match d.digits with
  | [] => []
  | [c] => c :: 'e' :: mark
  | c :: rest => c :: '.' :: (rest ++ 'e' :: mark)

/-- The text of a finite number, or the names of the others. -/
def write (layout : Layout) (x : Float) : String :=
  let bits := x.toBits
  if x.isNaN then "NaN"
  else
    let sign := if bits >>> 63 == 1 then "-" else ""
    if x.isInf then sign ++ "inf"
    else
      let b := Binary.ofBits bits
      if b.mantissa = 0 then sign ++ "0.0"
      else
        let d := b.digitsOf layout.tie
        let body :=
          if layout.leastPoint ≤ d.point ∧ d.point ≤ layout.greatestPoint then
            plain d
          else layout.scientific d
        sign ++ String.ofList body

end Layout

/-- Numbers inside JSON texts. -/
def jsonLayout : Layout := ⟨-4, 16, "+", .even⟩

/-- Numeric constants in SQL. -/
def constantLayout : Layout := ⟨-3, 16, "", .up⟩

end GovernedCatalog.Decimal
