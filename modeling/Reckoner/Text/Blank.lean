import Reckoner.Text.Basic

/-! White space, in the sense of every reader of this library: the controls from the horizontal tab
to the carriage return and from the file separator to the unit separator, and the separators of
Unicode. -/

namespace Reckoner

/-- Whether `c` is white space. -/
def isBlank (c : Char) : Bool :=
  let n := c.toNat
  (9 ≤ n && n ≤ 13) || (0x1c ≤ n && n ≤ 0x20) || n == 0x85 || n == 0xa0 || n == 0x1680 ||
    (0x2000 ≤ n && n ≤ 0x200a) || n == 0x2028 || n == 0x2029 || n == 0x202f || n == 0x205f ||
    n == 0x3000

namespace Text

/-- `s` without the white space at its two ends. -/
def stripped (s : Text) : Text := s.trimmed isBlank

/-- `s` without any white space. -/
def unspaced (s : Text) : Text := s.filter fun c => !isBlank c

/-- What follows the white space that `s` starts with. -/
def skipBlanks (s : Text) : Text := s.dropWhile isBlank

/-- The words of `s`: its maximal runs without white space. -/
def words : Text → List Text
  | [] => []
  | c :: s =>
    if isBlank c then words s
    else
      match s with
      | [] => [[c]]
      | d :: _ =>
        if isBlank d then [c] :: words s
        else
          match words s with
          | [] => [[c]]
          | word :: rest => (c :: word) :: rest

end Text

end Reckoner
