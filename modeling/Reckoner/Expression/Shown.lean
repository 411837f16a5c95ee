import Reckoner.Number.Layout

/-! The text of a result.  A whole number below `10 ^ 21` is shown in full; any other number is
rounded to twelve significant digits first.  There is never an exponent, so that the text is again
an expression. -/

namespace Reckoner

/-- Whole numbers of this size and above are rounded like all others. -/
def wholeLimit : Nat := Nat.pow 10 21

/-- The significant digits that are shown. -/
def shownDigits : Nat := 12

/-- A whole number below the limit. -/
def wholeText? (value : Double) : Option Text :=
  match value.toInt? with
  | some n => if n.natAbs < wholeLimit then some (Text.ofInt n) else none
  | none => none

/-- The double nearest to the twelve significant digits of a double. -/
def displayRounded : Double → Double
  | .finite negative ordinal _ =>
    (Decimal.rounded shownDigits (unitsOf ordinal) unitsPerOne).toDouble negative
  | value => value

/-- The shortest digits of a double without an exponent. -/
def positionalText : Double → Text
  | .finite negative ordinal _ => Double.signText negative ++ (shortest ordinal).positional
  | value => value.text

/-- The text of a result. -/
def shown (value : Double) : Text :=
  match wholeText? value with
  | some text => text
  | none =>
    let rounded := displayRounded value
    match wholeText? rounded with
    | some text => text
    | none => positionalText rounded

end Reckoner
