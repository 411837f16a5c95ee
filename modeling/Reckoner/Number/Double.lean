/-! Doubles.  The finite doubles of one sign are numbered from zero upward: ordinal 0 is zero, and
each ordinal after it is the next larger double.  Every finite double is a whole number of units of
`2 ^ -1074`, the smallest double above zero, so a finite double is exact and its arithmetic is that
of natural numbers.  `nearestOrdinal` rounds a quotient of naturals to the nearest double, a tie to
the even ordinal, which is the double with the even significand. -/

namespace Reckoner

/-- The ordinals of the finite doubles are those below this one, which would be `2 ^ 1024`. -/
def ordinalCount : Nat := 2047 * Nat.pow 2 52

/-- How many units of `2 ^ -1074` make one. -/
def unitsPerOne : Nat := Nat.pow 2 1074

/-- A double: a finite one with its sign and its ordinal, an infinity, or no number. -/
inductive Double
  | finite (negative : Bool) (ordinal : Nat) (bounded : ordinal < ordinalCount)
  | infinite (negative : Bool)
  | nan
  deriving DecidableEq, Repr

/-- The units in the double of this ordinal.  Below `2 ^ 53` they are the ordinal itself; from there
on the distance between neighbours doubles with each `2 ^ 52` ordinals. -/
def unitsOf (ordinal : Nat) : Nat :=
  if ordinal < Nat.pow 2 52 then ordinal
  else (Nat.pow 2 52 + ordinal % Nat.pow 2 52) * Nat.pow 2 (ordinal / Nat.pow 2 52 - 1)

/-- The natural number nearest to `n / d`, a tie to the even one. -/
def roundDiv (n d : Nat) : Nat :=
  let quotient := n / d
  let twice := 2 * (n % d)
  if twice < d then quotient
  else if twice = d then quotient + quotient % 2
  else quotient + 1

/-- The ordinal nearest to `n / d` units.  `n / d` is divided by the power of two that leaves 53
bits before the point; a carry to `2 ^ 53` gives the next ordinal as it should. -/
def nearestOrdinal (n d : Nat) : Nat :=
  let doublings := Nat.log2 (n / d) - 52
  roundDiv n (d * Nat.pow 2 doublings) + doublings * Nat.pow 2 52

namespace Double

/-- The double nearest to `n / d` units, with this sign; beyond the largest one it is infinite. -/
def nearest (negative : Bool) (n d : Nat) : Double :=
  if h : nearestOrdinal n d < ordinalCount then finite negative (nearestOrdinal n d) h
  else infinite negative

/-- Zero with this sign. -/
def zero (negative : Bool) : Double := finite negative 0 (by decide)

/-- The double nearest to a natural number. -/
def ofNat (n : Nat) : Double := nearest false (n * unitsPerOne) 1

/-- The double nearest to an integer. -/
def ofInt (n : Int) : Double := nearest (n < 0) (n.natAbs * unitsPerOne) 1

instance (n : Nat) : OfNat Double n := ⟨ofNat n⟩

/-- The double nearest to the ratio of a circle's circumference to its diameter. -/
def pi : Double := finite false 0x400921fb54442d18 (by decide)

/-- The double nearest to the base of the natural logarithm. -/
def e : Double := finite false 0x4005bf0a8b145769 (by decide)

/-- Whether the double is a number and not infinite. -/
def isFinite : Double → Bool
  | finite .. => true
  | infinite _ | nan => false

/-- Whether the sign is minus; a double that is no number has none. -/
def isNegative : Double → Bool
  | finite negative _ _ => negative
  | infinite negative => negative
  | nan => false

/-- The units of a finite double, with its sign. -/
def signedUnits (negative : Bool) (ordinal : Nat) : Int :=
  if negative then -(unitsOf ordinal : Int) else unitsOf ordinal

/-- The integer that the double is, if it is one. -/
def toInt? : Double → Option Int
  | finite negative ordinal _ =>
    let whole := unitsOf ordinal / unitsPerOne
    if unitsOf ordinal % unitsPerOne = 0 then some (if negative then -(whole : Int) else whole)
    else none
  | infinite _ | nan => none

/-- The place of a double in the order of all doubles; the two zeros share one. -/
def rank? : Double → Option Int
  | finite negative ordinal _ => some (if negative then -(ordinal : Int) else ordinal)
  | infinite negative => some (if negative then -(ordinalCount : Int) else ordinalCount)
  | nan => none

/-- Whether `a` is less than `b`; nothing is, of a double that is no number. -/
def lt (a b : Double) : Bool :=
  match a.rank?, b.rank? with
  | some m, some n => m < n
  | _, _ => false

/-- Whether `a` is at most `b`; nothing is, of a double that is no number. -/
def le (a b : Double) : Bool :=
  match a.rank?, b.rank? with
  | some m, some n => m ≤ n
  | _, _ => false

end Double

end Reckoner
