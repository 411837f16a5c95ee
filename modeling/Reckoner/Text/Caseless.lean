import Reckoner.Text.Basic

/-! Words read without regard to case.  A small letter is met by itself and its capital, and three
letters by a few more: `i` by the dotted capital and the dotless small letter, `k` by the sign for
kelvin, and `s` by the long s. -/

namespace Reckoner

/-- Whether `c` counts as the small letter `letter`, whatever its case; a character that is no small
letter is met by itself alone. -/
def meetsLetter (letter c : Char) : Bool :=
  c == letter || (letter.isLower && c == letter.toUpper) ||
    (letter == 'i' && (c.toNat == 0x130 || c.toNat == 0x131)) ||
    (letter == 'k' && c.toNat == 0x212a) || (letter == 's' && c.toNat == 0x17f)

namespace Text

/-- What follows `word` in `s`, if `s` starts with it in any case. -/
def afterWord? : (s word : Text) → Option Text
  | s, [] => some s
  | [], _ :: _ => none
  | c :: s, a :: word => if meetsLetter a c then afterWord? s word else none

end Text

end Reckoner
