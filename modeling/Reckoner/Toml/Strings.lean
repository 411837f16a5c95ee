import Reckoner.Text.Reading
import Reckoner.Toml.Value

/-! Spaces, comments, strings and keys of TOML.  Strings in double quotes have escapes, those in
single quotes have none; three quotes enclose a string that may have several lines. -/

namespace Reckoner.Toml

/-- The character `'`. -/
def singleQuote : Char := '\x27'

/-- Whether `c` is a blank within a line. -/
def isSpace (c : Char) : Bool := c == ' ' || c == '\t'

/-- Whether `c` is a blank or the end of a line. -/
def isGap (c : Char) : Bool := isSpace c || c == '\n'

/-- Whether `c` is a control character, which may stand nowhere in a line, other than a tab. -/
def isForbidden (c : Char) : Bool := (c.toNat < 0x20 && c != '\t') || c.toNat == 0x7f

/-- What follows the blanks at the start of a text. -/
def skipSpaces (s : Text) : Text := s.dropWhile isSpace

/-- What follows a comment, if the text starts with one: the end of its line. -/
def skipComment : Text → Except ReadFault Text
  | '#' :: s =>
    if (s.takeWhile (· != '\n')).any isForbidden then .error .malformed
    else .ok (s.dropWhile (· != '\n'))
  | s => .ok s

/-- What follows blanks, ends of lines and comments. -/
def skipGaps : (fuel : Nat) → Text → Except ReadFault Text
  | 0, _ => .error .malformed
  | fuel + 1, s =>
    match s.dropWhile isGap with
    | '#' :: s => (skipComment ('#' :: s)).bind (skipGaps fuel)
    | s => .ok s

/-! ### Escapes -/

/-- The character of a code point in hexadecimal digits. -/
def characterOf? (digits : Text) : Option Char :=
  match hexadecimal? digits with
  | some n => if n.isValidChar then some (Char.ofNat n) else none
  | none => none

/-- The character that the first `count` characters stand for as hexadecimal digits. -/
def hexEscape (count : Nat) (s : Text) : Reading Text :=
  match characterOf? (s.take count) with
  | some c => if s.length < count then .error .malformed else .ok ([c], s.drop count)
  | none => .error .malformed

/-- The character that a backslash with this character after it stands for. -/
def unescaped? : Char → Option Char
  | 'b' => some (Char.ofNat 8)
  | 't' => some '\t'
  | 'n' => some '\n'
  | 'f' => some (Char.ofNat 12)
  | 'r' => some '\r'
  | '"' => some '"'
  | '\\' => some '\\'
  | _ => none

/-- What follows the end of a line and all blanks and ends of lines after it. -/
def lineContinuation (s : Text) : Reading Text :=
  match skipSpaces s with
  | [] => .ok ([], [])
  | '\n' :: s => .ok ([], s.dropWhile isGap)
  | _ => .error .malformed

/-- What an escape stands for, after its backslash. -/
def escape (multiline : Bool) : Text → Reading Text
  | [] => .error .malformed
  | 'u' :: s => hexEscape 4 s
  | 'U' :: s => hexEscape 8 s
  | c :: s =>
    if multiline && isGap c then lineContinuation (c :: s)
    else
      match unescaped? c with
      | some c => .ok ([c], s)
      | none => .error .malformed

/-! ### Strings -/

/-- The text of a string up to the quotes that close it: one, or three for a string of several
lines. -/
def basicBody (multiline : Bool) : (fuel : Nat) → Text → Reading Text
  | 0, _ => .error .malformed
  | fuel + 1, s =>
    match s with
    | [] => .error .malformed
    | '\\' :: s =>
      (escape multiline s).bind fun (part, s) =>
        (basicBody multiline fuel s).map fun (more, rest) => (part ++ more, rest)
    | '"' :: s =>
      if multiline then
        match s with
        | '"' :: '"' :: rest => .ok ([], rest)
        | s => (basicBody multiline fuel s).map fun (more, rest) => ('"' :: more, rest)
      else .ok ([], s)
    | c :: s =>
      if isForbidden c && !(multiline && c == '\n') then .error .malformed
      else (basicBody multiline fuel s).map fun (more, rest) => (c :: more, rest)

/-- The text up to a closing mark, without escapes. -/
def literalBody (closing : Text) (multiline : Bool) : Text → Reading Text
  | [] => .error .malformed
  | c :: s =>
    match Text.after? closing (c :: s) with
    | some rest => .ok ([], rest)
    | none =>
      if isForbidden c && !(multiline && c == '\n') then .error .malformed
      else (literalBody closing multiline s).map fun (more, rest) => (c :: more, rest)

/-- A string of several lines with the quotes, at most two, that stand before the closing ones. -/
def withQuotes (quote : Char) (s rest : Text) : Text × Text :=
  let extra := (rest.take 2).takeWhile (· == quote)
  (s ++ extra, rest.drop extra.length)

/-- What follows the end of a line, if the text starts with one. -/
def skipLineEnd : Text → Text
  | '\n' :: s => s
  | s => s

/-- The string of one line that a text starts with. -/
def lineString : Text → Reading Text
  | '"' :: s => basicBody false (s.length + 1) s
  | c :: s => if c = singleQuote then literalBody [singleQuote] false s else .error .malformed
  | [] => .error .malformed

/-- The string that a text starts with. -/
def string (s : Text) : Reading Text :=
  match Text.after? "\"\"\"" s with
  | some s =>
    (basicBody true (s.length + 1) (skipLineEnd s)).map fun (text, rest) =>
      withQuotes '"' text rest
  | none =>
    match Text.after? (List.replicate 3 singleQuote) s with
    | some s =>
      (literalBody (List.replicate 3 singleQuote) true (skipLineEnd s)).map fun (text, rest) =>
        withQuotes singleQuote text rest
    | none => lineString s

/-! ### Keys -/

/-- Whether `c` may stand in a name without quotes. -/
def isBare (c : Char) : Bool := c.isAlphanum || c == '-' || c == '_'

/-- Whether `c` starts a name. -/
def startsName (c : Char) : Bool := isBare c || c == '"' || c == singleQuote

/-- The name that a text starts with. -/
def keyName (s : Text) : Reading Text :=
  if (s.takeWhile isBare).isEmpty then lineString s
  else .ok (s.takeWhile isBare, s.dropWhile isBare)

/-- The names that a text starts with, with points between them; what is left starts with no
blank. -/
def keyFrom : (fuel : Nat) → Text → Reading Key
  | 0, _ => .error .malformed
  | fuel + 1, s =>
    (keyName s).bind fun (name, s) =>
      match skipSpaces s with
      | '.' :: s => (keyFrom fuel (skipSpaces s)).map fun (more, rest) => (name :: more, rest)
      | rest => .ok ([name], rest)

/-- The key that a text starts with. -/
def key (s : Text) : Reading Key := keyFrom (s.length + 1) s

end Reckoner.Toml
