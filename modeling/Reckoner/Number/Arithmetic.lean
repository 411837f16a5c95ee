import Reckoner.Number.Double

/-! Arithmetic on doubles.  Each operation is the exact one, rounded once to the nearest double.
Division refuses a zero divisor. -/

namespace Reckoner

/-- Why an operation on doubles has no result. -/
inductive MathFault
  | divisionByZero
  | overflow
  /-- The arguments lie outside the domain of the function. -/
  | domain
  deriving DecidableEq, Repr

namespace Double

/-- The double with the other sign. -/
def neg : Double → Double
  | finite negative ordinal h => finite (!negative) ordinal h
  | infinite negative => infinite (!negative)
  | nan => nan

/-- The double without its sign. -/
def abs : Double → Double
  | finite _ ordinal h => finite false ordinal h
  | infinite _ => infinite false
  | nan => nan

/-- The sum.  A sum that is zero is positive, unless both terms are negative zeros. -/
def add : Double → Double → Double
  | nan, _ | _, nan => nan
  | infinite s, infinite t => if s = t then infinite s else nan
  | infinite s, finite .. => infinite s
  | finite .., infinite t => infinite t
  | finite s a _, finite t b _ =>
    let sum := signedUnits s a + signedUnits t b
    if sum = 0 then zero (s && t) else nearest (sum < 0) sum.natAbs 1

/-- The difference. -/
def sub (a b : Double) : Double := add a b.neg

/-- The product. -/
def mul : Double → Double → Double
  | nan, _ | _, nan => nan
  | infinite s, infinite t => infinite (s ^^ t)
  | infinite s, finite t b _ => if b = 0 then nan else infinite (s ^^ t)
  | finite s a _, infinite t => if a = 0 then nan else infinite (s ^^ t)
  | finite s a _, finite t b _ => nearest (s ^^ t) (unitsOf a * unitsOf b) unitsPerOne

/-- The quotient. -/
def div : Double → Double → Except MathFault Double
  | _, finite _ 0 _ => .error .divisionByZero
  | nan, _ | _, nan => .ok nan
  | infinite _, infinite _ => .ok nan
  | infinite s, finite t _ _ => .ok (infinite (s ^^ t))
  | finite s _ _, infinite t => .ok (zero (s ^^ t))
  | finite s a _, finite t b _ => .ok (nearest (s ^^ t) (unitsOf a * unitsPerOne) (unitsOf b))

end Double

/-- The integer part of the square root of `n`, one bit of it for each two of `n`. -/
def floorSqrt (n : Nat) : Nat :=
  if h : n = 0 then 0
  else
    let root := 2 * floorSqrt (n / 4)
    if (root + 1) * (root + 1) ≤ n then root + 1 else root
  termination_by n
  decreasing_by omega

namespace Double

/-- The square root.  The root of the units is taken with 64 more bits, and one bit after them tells
whether it is exact, which is all that rounding needs. -/
def sqrt : Double → Except MathFault Double
  | nan => .ok nan
  | infinite negative => if negative then .error .domain else .ok (infinite false)
  | finite negative ordinal h =>
    if ordinal = 0 then .ok (finite negative ordinal h)
    else if negative then .error .domain
    else
      let square := unitsOf ordinal * unitsPerOne * Nat.pow 4 64
      let root := floorSqrt square
      let inexact := if root * root = square then 0 else 1
      .ok (nearest false (2 * root + inexact) (Nat.pow 2 65))

end Double

end Reckoner
