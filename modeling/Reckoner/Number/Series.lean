import Reckoner.Number.Double

/-! Elementary functions in fixed point.  A real is held as the integer nearest to it after
multiplication by `2 ^ 2400`, which leaves more than a thousand bits of precision for the largest
and the smallest doubles.  The series are summed until their terms vanish at that precision. -/

namespace Reckoner.Series

/-- The bits after the point. -/
def fractionBits : Nat := 2400

/-- One in fixed point. -/
def one : Nat := Nat.pow 2 fractionBits

/-- The product of two reals. -/
def times (a b : Int) : Int := a * b / one

/-- `power / odd - power / (square * (odd + 2)) + ...`, with all signs plus unless `alternating`. -/
def oddSeries (alternating : Bool) : (terms : Nat) → (power : Int) → (square : Int → Int) →
    (odd : Nat) → Int
  | 0, _, _, _ => 0
  | terms + 1, power, square, odd =>
    if power = 0 then 0
    else
      let next := square power
      power / odd +
        oddSeries alternating terms (if alternating then -next else next) square (odd + 2)

/-- The arc tangent of `1 / k`. -/
def arcTangentOfInverse (k : Nat) : Int :=
  oddSeries true fractionBits (one / k : Nat) (· / (k * k : Nat)) 1

/-- The circumference of a circle of diameter one. -/
def pi : Int := 16 * arcTangentOfInverse 5 - 4 * arcTangentOfInverse 239

/-- A quarter of a turn. -/
def quarterTurn : Int := pi / 2

/-- The natural logarithm of `(one + z) / (one - z)`. -/
def logOfRatio (z : Int) : Int :=
  let square := times z z
  2 * oddSeries false fractionBits z (fun power => times power square) 1

/-- The natural logarithm of two. -/
def logTwo : Int := logOfRatio (one / 3 : Nat)

/-- The natural logarithm of ten, which is `8 * 1.25`. -/
def logTen : Int := 3 * logTwo + logOfRatio (one / 9 : Nat)

/-- The natural logarithm of a number of units above zero.  The number is taken as a power of two
times a factor between the square roots of one half and of two. -/
def log (units : Nat) : Int :=
  let place := Nat.log2 units
  let factor := units * Nat.pow 2 (fractionBits - place)
  let (factor, place) :=
    if 2 * one * one < factor * factor then (factor / 2, place + 1) else (factor, place)
  let z : Int := ((factor : Int) - one) * one / ((factor : Int) + one)
  logOfRatio z + ((place : Int) - 1074) * logTwo

/-- `term + term * x / k + term * x * x / (k * (k + 1)) + ...`. -/
def powerSeries (x : Int) : (terms : Nat) → (term : Int) → (k : Nat) → Int
  | 0, _, _ => 0
  | terms + 1, term, k =>
    if term = 0 then 0 else term + powerSeries x terms (times term x / k) (k + 1)

/-- The exponential of a real between minus one and one. -/
def exp (x : Int) : Int := powerSeries x fractionBits one 1

/-- `term - term * square / (k * (k + 1)) + ...`. -/
def alternatingSeries (square : Int) : (terms : Nat) → (term : Int) → (k : Nat) → Int
  | 0, _, _ => 0
  | terms + 1, term, k =>
    if term = 0 then 0
    else term + alternatingSeries square terms (-(times term square / (k * (k + 1) : Nat))) (k + 2)

/-- The sine of a real between minus one and one. -/
def smallSin (x : Int) : Int := alternatingSeries (times x x) fractionBits x 2

/-- The cosine of a real between minus one and one. -/
def smallCos (x : Int) : Int := alternatingSeries (times x x) fractionBits one 1

/-- The sine and the cosine of a real that is not negative.  The quarter turns nearest to the real
are taken off it, and each of them moves the point on the circle on by one quadrant. -/
def sinCos (x : Int) : Int × Int :=
  let turns := (2 * x + quarterTurn) / (2 * quarterTurn)
  let rest := x - turns * quarterTurn
  let s := smallSin rest
  let c := smallCos rest
  match (turns % 4).toNat with
  | 0 => (s, c)
  | 1 => (c, -s)
  | 2 => (-s, -c)
  | _ => (-c, s)

/-- A number of units in fixed point. -/
def ofUnits (units : Nat) : Int := (units * Nat.pow 2 (fractionBits - 1074) : Nat)

/-- `n` with its first 192 bits kept, rounded.  A real that has at most that many bits is recovered
exactly from its neighbourhood, so that exact roots, powers and logarithms come out exact. -/
def kept (n : Nat) : Nat :=
  let dropped := Nat.log2 n - 192
  roundDiv n (Nat.pow 2 dropped) * Nat.pow 2 dropped

end Reckoner.Series
