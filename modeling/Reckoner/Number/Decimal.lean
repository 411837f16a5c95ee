import Reckoner.Number.Double
import Reckoner.Text.Basic

/-! Decimals: a whole number of digits times a power of ten.  A decimal is read as the nearest
double, and a double is rounded to a decimal with a given count of significant digits. -/

namespace Reckoner

/-- The number `digits * 10 ^ exponent`. -/
structure Decimal where
  digits : Nat
  exponent : Int
  deriving DecidableEq, Repr

/-- How many decimal digits a natural number has. -/
def digitCount (n : Nat) : Nat := (Nat.toDigits 10 n).length

/-- The value of decimal digits, the first of which is the highest. -/
def digitsValue (digits : Text) : Nat :=
  digits.foldl (fun value c => value * 10 + (c.toNat - '0'.toNat)) 0

namespace Decimal

/-- The number written as `whole.fraction` with this power of ten after it. -/
def ofDigits (whole fraction : Text) (exponent : Int) : Decimal :=
  ⟨digitsValue (whole ++ fraction), exponent - fraction.length⟩

/-- The number that a run of digits with at most one point stands for. -/
def ofLiteral (literal : Text) : Decimal :=
  ofDigits (literal.takeWhile (· != '.')) ((literal.dropWhile (· != '.')).drop 1) 0

/-- The nearest double with this sign.  Beyond `10 ^ 310` every double is infinite, and below
`10 ^ -326` every double rounds to zero. -/
def toDouble (negative : Bool) (decimal : Decimal) : Double :=
  let places := (digitCount decimal.digits : Int) + decimal.exponent
  if decimal.digits = 0 then .zero negative
  else if 310 < places then .infinite negative
  else if places < -326 then .zero negative
  else
    match decimal.exponent with
    | .ofNat k => .nearest negative (decimal.digits * Nat.pow 10 k * unitsPerOne) 1
    | .negSucc k => .nearest negative (decimal.digits * unitsPerOne) (Nat.pow 10 (k + 1))

/-- The same number with no zero at the end of its digits. -/
def withoutZeros (decimal : Decimal) : Decimal :=
  if h : decimal.digits = 0 then ⟨0, 0⟩
  else if decimal.digits % 10 = 0 then
    withoutZeros ⟨decimal.digits / 10, decimal.exponent + 1⟩
  else decimal
  termination_by decimal.digits
  decreasing_by omega

/-- The exponent of the highest decimal place of `n / d`: the `k` with
`10 ^ k ≤ n / d < 10 ^ (k + 1)`. -/
def leadingPlace (n d : Nat) : Int :=
  let k : Int := (digitCount n : Int) - digitCount d
  if d * Nat.pow 10 k.toNat ≤ n * Nat.pow 10 (-k).toNat then k else k - 1

/-- `n / d` divided by `10 ^ place`, as a numerator and a denominator. -/
def scaled (n d : Nat) (place : Int) : Nat × Nat :=
  (n * Nat.pow 10 (-place).toNat, d * Nat.pow 10 place.toNat)

/-- The decimal with `count` significant digits that is nearest to `n / d`, a tie to the even last
digit. -/
def rounded (count n d : Nat) : Decimal :=
  if n = 0 then ⟨0, 0⟩
  else
    let place := leadingPlace n d - (count - 1 : Int)
    let (p, q) := scaled n d place
    ⟨roundDiv p q, place⟩

end Decimal

end Reckoner
