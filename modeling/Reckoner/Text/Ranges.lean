/-! Sets of characters given as ranges of code points, in increasing order. -/

namespace Reckoner

/-- A set of code points: the union of the closed ranges `first` to `last`. -/
abbrev Ranges := List (Nat × Nat)

/-- Whether `n` lies in one of the ranges. -/
def Ranges.holds (ranges : Ranges) (n : Nat) : Bool :=
  ranges.any fun range => range.1 ≤ n && n ≤ range.2

end Reckoner
