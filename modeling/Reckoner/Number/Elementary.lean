import Reckoner.Number.Arithmetic
import Reckoner.Number.Series

/-! The elementary functions on doubles: the nearest double to the exact result, and a fault where
there is none. -/

namespace Reckoner.Double

/-- The nearest double to a real in fixed point. -/
def ofFixed (x : Int) : Double :=
  nearest (x < 0) (Series.kept x.natAbs * unitsPerOne) Series.one

/-- A trigonometric function, given by the sine and the cosine of its argument without the sign and
by its parity.  A function of an infinite angle has no value. -/
def circular (odd : Bool) (f : Int → Int → Int) : Double → Except MathFault Double
  | nan => .ok nan
  | infinite _ => .error .domain
  | finite negative ordinal h =>
    if odd && ordinal = 0 then .ok (finite negative ordinal h)
    else
      let (s, c) := Series.sinCos (Series.ofUnits (unitsOf ordinal))
      let value := ofFixed (f s c)
      .ok (if odd && negative then value.neg else value)

/-- The sine. -/
def sin : Double → Except MathFault Double := circular true fun s _ => s

/-- The cosine. -/
def cos : Double → Except MathFault Double := circular false fun _ c => c

/-- The tangent. -/
def tan : Double → Except MathFault Double := circular true fun s c => s * Series.one / c

/-- A logarithm, given by the natural one of the units.  It is for positive numbers alone. -/
def logarithm (f : Int → Int) : Double → Except MathFault Double
  | nan => .ok nan
  | infinite negative => if negative then .error .domain else .ok (infinite false)
  | finite negative ordinal _ =>
    if negative || ordinal = 0 then .error .domain
    else .ok (ofFixed (f (Series.log (unitsOf ordinal))))

/-- The natural logarithm. -/
def ln : Double → Except MathFault Double := logarithm id

/-- The logarithm to the base ten. -/
def log10 : Double → Except MathFault Double :=
  logarithm fun x => x * Series.one / Series.logTen

/-- Whether a double is an odd integer. -/
def isOdd (x : Double) : Bool :=
  match x.toInt? with
  | some n => n % 2 != 0
  | none => false

/-- The nearest double to the exponential of a real in fixed point, with this sign.  A real beyond
`2 ^ 11` either way has an exponential beyond every double, or below all of them. -/
def exponential (negative : Bool) (x : Int) : Double :=
  let bound : Int := Series.one * 2048
  if bound < x then infinite negative
  else if x < -bound then zero negative
  else
    let doublings := (2 * x + Series.logTwo) / (2 * Series.logTwo)
    let factor := Series.kept (Series.exp (x - doublings * Series.logTwo)).toNat
    nearest negative (factor * unitsPerOne * Nat.pow 2 doublings.toNat)
      (Series.one * Nat.pow 2 (-doublings).toNat)

/-- The power of two finite doubles, the base not zero. -/
def finitePower (negative : Bool) (base : Nat) (y : Double) (yUnits : Int) :
    Except MathFault Double :=
  if negative && y.toInt?.isNone then .error .domain
  else
    match exponential (negative && y.isOdd) (Series.log (unitsOf base) * yUnits / unitsPerOne) with
    | infinite _ => .error .overflow
    | power => .ok power

/-- The power `x ^ y`.  With a zero exponent or the base one it is one, even where the other is no
number.  A zero base has no negative power, and a negative base none that is not whole. -/
def pow (x y : Double) : Except MathFault Double :=
  match x, y with
  | nan, y => .ok (if y.rank? = some 0 then 1 else nan)
  | x, nan => .ok (if x = 1 then 1 else nan)
  | infinite s, y =>
    let negative := s && y.isOdd
    if y.rank? = some 0 then .ok 1
    else if y.isNegative then .ok (zero negative)
    else .ok (infinite negative)
  | x, infinite t =>
    if x.abs = 1 then .ok 1
    else if t = lt 1 x.abs then .ok (zero false)
    else .ok (infinite false)
  | finite s a _, finite t b hb =>
    if b = 0 then .ok 1
    else if a = 0 then
      if t then .error .domain else .ok (zero (s && (finite t b hb).isOdd))
    else finitePower s a (finite t b hb) (signedUnits t b)

end Reckoner.Double
