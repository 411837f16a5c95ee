import Reckoner.Number.Decimal

/-! The shortest decimal of a double: of the decimals that read back as that double, one with the
fewest digits, and of those the nearest.  The reals that round to a double lie between the two
midpoints to its neighbours, and a midpoint itself rounds to the even ordinal. -/

namespace Reckoner

/-- Whether the decimal grid point `m / q`, in half units, rounds to the double of this ordinal. -/
def readsBack (ordinal m q : Nat) : Bool :=
  let low := (unitsOf (ordinal - 1) + unitsOf ordinal) * q
  let high := (unitsOf ordinal + unitsOf (ordinal + 1)) * q
  if ordinal % 2 = 0 then low ≤ m && m ≤ high else low < m && m < high

/-- A grid point next to the double of this ordinal that reads back as it, where the grid has a
point at every whole number of `q / p` half units.  Of two such points it is the nearer one, and of
two at the same distance the even one. -/
def gridPoint? (ordinal p q : Nat) : Option Nat :=
  let value := 2 * unitsOf ordinal * p
  let below := value / q
  let above := below + 1
  let nearer := roundDiv value q
  let other := if nearer = below then above else below
  if readsBack ordinal (nearer * q) p then some nearer
  else if readsBack ordinal (other * q) p then some other
  else none

/-- The first decimal that reads back, on the grids of `count` digits, `count + 1` digits and so on
to `count + more` digits; on the last grid the nearest point is taken. -/
def shortestFrom (ordinal : Nat) (leading : Int) (count : Nat) : (more : Nat) → Decimal
  | 0 => Decimal.rounded count (unitsOf ordinal) unitsPerOne
  | more + 1 =>
    let place := leading - (count - 1 : Int)
    let (p, q) := Decimal.scaled 1 (2 * unitsPerOne) place
    match gridPoint? ordinal p q with
    | some digits => ⟨digits, place⟩
    | none => shortestFrom ordinal leading (count + 1) more

/-- The shortest decimal that reads back as the double of this ordinal.  Seventeen digits are always
enough. -/
def shortest (ordinal : Nat) : Decimal :=
  if ordinal = 0 then ⟨0, 0⟩
  else
    (shortestFrom ordinal (Decimal.leadingPlace (unitsOf ordinal) unitsPerOne) 1 16).withoutZeros

end Reckoner
