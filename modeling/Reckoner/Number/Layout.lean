import Reckoner.Number.Arithmetic
import Reckoner.Number.Shortest

/-! The text of a number.  A double is written with its shortest digits, positionally where the
exponent of its first digit lies within the bounds of a layout, and with an exponent elsewhere. -/

namespace Reckoner

namespace Decimal

/-- The digits with a point before the last `places` of them, and zeros in front where there are
too few. -/
def withPoint (digits : Text) (places : Nat) : Text :=
  let padded := List.replicate (places + 1 - digits.length) '0' ++ digits
  padded.take (padded.length - places) ++ '.' :: padded.drop (padded.length - places)

/-- The decimal without an exponent: a whole number has no point. -/
def positional (decimal : Decimal) : Text :=
  match decimal.exponent with
  | .ofNat k => Text.ofNat decimal.digits ++ List.replicate k '0'
  | .negSucc k => withPoint (Text.ofNat decimal.digits) (k + 1)

/-- The decimal with one digit before the point and the exponent after the mark `e`, which has a
sign and two digits at least. -/
def scientific (decimal : Decimal) : Text :=
  let digits := Text.ofNat decimal.digits
  let exponent : Int := decimal.exponent + (digits.length - 1 : Int)
  let size := Text.ofNat exponent.natAbs
  digits.take 1 ++ (if digits.length = 1 then [] else '.' :: digits.drop 1) ++
    'e' :: (if exponent < 0 then '-' else '+') :: (List.replicate (2 - size.length) '0' ++ size)

end Decimal

/-- How doubles are laid out: the exponents of the first digit from `low` to below `high` are
written positionally. -/
structure Layout where
  low : Int
  high : Int

/-- The layout of doubles in tokens, messages and files. -/
def Layout.plain : Layout := ⟨-4, 16⟩

/-- A decimal in a layout.  A whole number that is written positionally gets a point and a zero. -/
def Layout.write (layout : Layout) (decimal : Decimal) : Text :=
  let first : Int := decimal.exponent + (digitCount decimal.digits - 1 : Int)
  if layout.low ≤ first && first < layout.high then
    decimal.positional ++ (if 0 ≤ decimal.exponent then ".0".toList else [])
  else decimal.scientific

namespace Double

/-- The sign of a number as it stands before its digits. -/
def signText (negative : Bool) : Text := if negative then ['-'] else []

/-- The text of a double that reads back as the same double. -/
def text : Double → Text
  | finite negative ordinal _ => signText negative ++ Layout.plain.write (shortest ordinal)
  | infinite negative => signText negative ++ "inf"
  | nan => "nan"

/-- The text with this count of decimal places after the point, the nearest such decimal, a tie to
the even last digit. -/
def fixedText (places : Nat) : Double → Text
  | finite negative ordinal _ =>
    let digits := Text.ofNat (roundDiv (unitsOf ordinal * Nat.pow 10 places) unitsPerOne)
    signText negative ++ (if places = 0 then digits else Decimal.withPoint digits places)
  | infinite negative => signText negative ++ "inf"
  | nan => "nan"

end Double

end Reckoner
