import Reckoner.Text.Basic
import Reckoner.Text.Printable

/-! Quoted text, as messages show it.  The quotes are single, unless the text has single quotes and
no double ones.  A backslash, the chosen quote and the unprintable characters are escaped. -/

namespace Reckoner.Text

/-- The lower-case hexadecimal digits of `n`, at least `width` of them. -/
def hexadecimal (width n : Nat) : Text :=
  let digits := Nat.toDigits 16 n
  List.replicate (width - digits.length) '0' ++ digits

/-- How `c` is written between two quotes. -/
def escapedIn (quote c : Char) : Text :=
  if c = quote || c = '\\' then ['\\', c]
  else if c = '\n' then "\\n"
  else if c = '\r' then "\\r"
  else if c = '\t' then "\\t"
  else if isPrintable c then [c]
  else if c.toNat < 0x100 then "\\x" ++ hexadecimal 2 c.toNat
  else if c.toNat < 0x10000 then "\\u" ++ hexadecimal 4 c.toNat
  else "\\U" ++ hexadecimal 8 c.toNat

/-- The quote for `s`: double only if `s` has single quotes and no double ones. -/
def quoteFor (s : Text) : Char := if s.elem '\x27' && !s.elem '"' then '"' else '\x27'

/-- `s` between quotes. -/
def quoted (s : Text) : Text :=
  quoteFor s :: (s.flatMap (escapedIn (quoteFor s)) ++ [quoteFor s])

end Reckoner.Text
