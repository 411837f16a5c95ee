import Reckoner.Text.Basic

/-! Lines.  A line ends at any of ten marks, and a carriage return with a line feed after it is one
mark.  Files are read with every line end made a line feed. -/

namespace Reckoner

/-- Whether `c` ends a line: line feed, vertical tab, form feed, carriage return, the three
separators from the file separator on, next line, line separator, paragraph separator. -/
def isLineEnd (c : Char) : Bool :=
  let n := c.toNat
  (10 ≤ n && n ≤ 13) || (0x1c ≤ n && n ≤ 0x1e) || n == 0x85 || n == 0x2028 || n == 0x2029

namespace Text

/-- The lines of a text whose first line starts with the characters of `line`, newest first.  The
end of the text ends a line only if that line has a character. -/
def linesFrom (line : Text) : Text → List Text
  | [] => if line.isEmpty then [] else [line.reverse]
  | '\r' :: '\n' :: s => line.reverse :: linesFrom [] s
  | c :: s => if isLineEnd c then line.reverse :: linesFrom [] s else linesFrom (c :: line) s

/-- The lines of a text, without their ends. -/
def lines (s : Text) : List Text := linesFrom [] s

/-- The text with each carriage return, and each carriage return with its line feed, made one line
feed. -/
def unifyLineFeeds : Text → Text
  | [] => []
  | '\r' :: '\n' :: s => '\n' :: unifyLineFeeds s
  | c :: s => (if c = '\r' then '\n' else c) :: unifyLineFeeds s

end Text

end Reckoner
