import Reckoner.Number.Decimal
import Reckoner.Text.Blank
import Reckoner.Text.Digit
import Reckoner.Text.Reading

/-! Integers as they are written by hand: digits of any script with a sign or without, single
underscores between digits, and white space around.  An integer
with more digits than may be read is not written either. -/

namespace Reckoner.Text

/-- Whether `c` may stand around an integer: white space that is no separator of information. -/
def isMargin (c : Char) : Bool := isBlank c && !(0x1c ≤ c.toNat && c.toNat ≤ 0x1f)

/-- The values of digits with single underscores between them. -/
def digitValues? : Text → Option (List Nat)
  | [] => none
  | [c] => (digitValue? c).map fun d => [d]
  | c :: '_' :: d :: s =>
    match digitValue? c with
    | some value => (digitValues? (d :: s)).map (value :: ·)
    | none => none
  | c :: d :: s =>
    match digitValue? c with
    | some value => (digitValues? (d :: s)).map (value :: ·)
    | none => none

/-- The number that digits stand for, unless there are too many. -/
def digitsNumber? (s : Text) : Option Nat :=
  match digitValues? s with
  | some values =>
    if maxIntegerDigits < values.length then none
    else some (values.foldl (fun n d => n * 10 + d) 0)
  | none => none

/-- The integer that a text stands for. -/
def toInteger? (s : Text) : Option Int :=
  match s.trimmed isMargin with
  | '-' :: digits => (digitsNumber? digits).map fun n => -(n : Int)
  | '+' :: digits => (digitsNumber? digits).map Int.ofNat
  | digits => (digitsNumber? digits).map Int.ofNat

/-- An integer in decimal digits, unless there are too many. -/
def ofInt? (n : Int) : Option Text :=
  if maxIntegerDigits < (ofNat n.natAbs).length then none else some (ofInt n)

end Reckoner.Text
