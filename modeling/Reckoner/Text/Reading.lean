import Reckoner.Text.Basic

/-! What readers of file formats share: a reader takes what it reads off the front of a text and
leaves the rest. -/

namespace Reckoner

/-- Why a text is not read. -/
inductive ReadFault
  | malformed
  /-- An integer with more digits than are ever read. -/
  | numeralTooLong
  /-- Values that are nested too deep. -/
  | tooDeep
  deriving DecidableEq, Repr

/-- What has been read of a text, and what is left of it. -/
abbrev Reading (α : Type) := Except ReadFault (α × Text)

/-- Most decimal digits of an integer. -/
def maxIntegerDigits : Nat := 4300

/-- The value of a hexadecimal digit. -/
def hexDigit? (c : Char) : Option Nat :=
  if c.isDigit then some (c.toNat - '0'.toNat)
  else if 'a' ≤ c && c ≤ 'f' then some (c.toNat - 'a'.toNat + 10)
  else if 'A' ≤ c && c ≤ 'F' then some (c.toNat - 'A'.toNat + 10)
  else none

/-- The value of hexadecimal digits, the first of which is the highest. -/
def hexadecimal? (digits : Text) : Option Nat :=
  digits.foldlM (fun n c => (hexDigit? c).map (n * 16 + ·)) 0

end Reckoner
