import Reckoner.Number.Decimal

/-! Reading the text of a double: a sign, digits with a point among them or not, and a power of ten
after the mark `e`; or the name of an infinity or of no number. -/

namespace Reckoner

/-- The integer that a sign and decimal digits stand for. -/
def signedDigits? (s : Text) : Option Int :=
  let value (digits : Text) : Option Nat :=
    if digits.isEmpty || !digits.all Char.isDigit then none else some (digitsValue digits)
  match s with
  | '-' :: digits => (value digits).map fun n => -(n : Int)
  | '+' :: digits => (value digits).map Int.ofNat
  | digits => (value digits).map Int.ofNat

/-- Whether `c` is the mark before an exponent. -/
def isExponentMark (c : Char) : Bool := c == 'e' || c == 'E'

/-- The decimal that a text without a sign stands for. -/
def Decimal.ofText? (s : Text) : Option Decimal :=
  let number := s.takeWhile fun c => !isExponentMark c
  let whole := number.takeWhile (· != '.')
  let fraction := (number.dropWhile (· != '.')).drop 1
  let exponent :=
    match s.dropWhile fun c => !isExponentMark c with
    | [] => some 0
    | _ :: digits => signedDigits? digits
  if (whole ++ fraction).isEmpty || !(whole ++ fraction).all Char.isDigit then none
  else exponent.map (ofDigits whole fraction)

/-- The double nearest to the number that a text without a sign stands for. -/
def Double.ofUnsigned? (negative : Bool) (s : Text) : Option Double :=
  if s = "inf".toList then some (.infinite negative)
  else if s = "nan".toList then some .nan
  else (Decimal.ofText? s).map (·.toDouble negative)

/-- The double nearest to the number that a text stands for. -/
def Double.ofText? : Text → Option Double
  | '-' :: s => ofUnsigned? true s
  | '+' :: s => ofUnsigned? false s
  | s => ofUnsigned? false s

end Reckoner
