import Reckoner.Json.Value
import Reckoner.Number.Decimal
import Reckoner.Text.Reading

/-! Reading JSON.  Beside the names of the standard, those of the infinities and of no number are
values.  Arrays and objects are nested only so deep. -/

namespace Reckoner.Json

/-- What follows the white space at the start of a text: spaces, tabs and the ends of lines. -/
def skipSpace (s : Text) : Text :=
  s.dropWhile fun c => c == ' ' || c == '\t' || c == '\n' || c == '\r'

/-! ### Strings -/

/-- The character that a backslash with this character after it stands for. -/
def unescaped? : Char → Option Char
  | '"' => some '"'
  | '\\' => some '\\'
  | '/' => some '/'
  | 'b' => some (Char.ofNat 8)
  | 'f' => some (Char.ofNat 12)
  | 'n' => some '\n'
  | 'r' => some '\r'
  | 't' => some '\t'
  | _ => none

/-- The code points of a string up to its closing quote; surrogates are not yet joined. -/
def codePoints : Text → Reading (List Nat)
  | [] => .error .malformed
  | '"' :: s => .ok ([], s)
  | '\\' :: 'u' :: a :: b :: c :: d :: s =>
    match hexadecimal? [a, b, c, d] with
    | none => .error .malformed
    | some n => (codePoints s).map fun (more, rest) => (n :: more, rest)
  | '\\' :: c :: s =>
    match unescaped? c with
    | none => .error .malformed
    | some c => (codePoints s).map fun (more, rest) => (c.toNat :: more, rest)
  | c :: s =>
    if c = '\\' || c.toNat < 0x20 then .error .malformed
    else (codePoints s).map fun (more, rest) => (c.toNat :: more, rest)

/-- The text of a string after its opening quote. -/
def stringBody (s : Text) : Reading LooseText :=
  (codePoints s).map fun (points, rest) => (.ofCodePoints points, rest)

/-! ### Numbers -/

/-- The digits that a text starts with, and what is left. -/
def spanDigits (s : Text) : Text × Text := (s.takeWhile Char.isDigit, s.dropWhile Char.isDigit)

/-- The digits before the point: a zero alone, or digits that do not start with one. -/
def wholePart? : Text → Option (Text × Text)
  | '0' :: s => some (['0'], s)
  | s => if (spanDigits s).1.isEmpty then none else some (spanDigits s)

/-- The digits after a point, and what is left; without a point that has digits after it there are
none. -/
def fractionPart (s : Text) : Text × Text :=
  match s with
  | '.' :: rest => if (spanDigits rest).1.isEmpty then ([], s) else spanDigits rest
  | _ => ([], s)

/-- The exponent that a text starts with, and what is left. -/
def exponentPart? (s : Text) : Option (Int × Text) :=
  match s with
  | mark :: rest =>
    if mark = 'e' || mark = 'E' then
      let (negative, rest) :=
        match rest with
        | '-' :: rest => (true, rest)
        | '+' :: rest => (false, rest)
        | rest => (false, rest)
      let (digits, rest) := spanDigits rest
      if digits.isEmpty then none
      else some (if negative then -(digitsValue digits : Int) else digitsValue digits, rest)
    else none
  | [] => none

/-- The number after its sign. -/
def unsigned (negative : Bool) (s : Text) : Reading Value :=
  match wholePart? s with
  | none => .error .malformed
  | some (whole, s) =>
    let (fraction, s) := fractionPart s
    match exponentPart? s with
    | some (exponent, s) =>
      .ok (.real ((Decimal.ofDigits whole fraction exponent).toDouble negative), s)
    | none =>
      if !fraction.isEmpty then
        .ok (.real ((Decimal.ofDigits whole fraction 0).toDouble negative), s)
      else if maxIntegerDigits < whole.length then .error .numeralTooLong
      else .ok (.integer (if negative then -(digitsValue whole : Int) else digitsValue whole), s)

/-- The number that a text starts with. -/
def number : Text → Reading Value
  | '-' :: s => unsigned true s
  | s => unsigned false s

/-! ### Values -/

/-- The values that have names. -/
def named : List (Text × Value) :=
  [("null", .null), ("true", .boolean true), ("false", .boolean false), ("NaN", .real .nan),
    ("Infinity", .real (.infinite false)), ("-Infinity", .real (.infinite true))]

/-- The value that a text starts with, if it is no string, array or object. -/
def scalar (s : Text) : Reading Value :=
  match named.findSome? fun (name, value) => (Text.after? name s).map fun rest => (value, rest) with
  | some reading => .ok reading
  | none => number s

/-- How deep arrays and objects may be nested. -/
def maxDepth : Nat := 985

mutual

/-- The value that a text starts with.  The fuel bounds how often the readers call each other, and
arrays and objects in the value may be nested `depth` deep. -/
def valueFrom : (fuel depth : Nat) → Text → Reading Value
  | 0, _, _ => .error .malformed
  | fuel + 1, depth, s =>
    match depth, s with
    | _, '"' :: s => (stringBody s).map fun (text, rest) => (.text text, rest)
    | 0, '[' :: _ | 0, '{' :: _ => .error .tooDeep
    | depth + 1, '[' :: s =>
      match skipSpace s with
      | ']' :: rest => .ok (.array [], rest)
      | s => (itemsFrom fuel depth s).map fun (items, rest) => (.array items, rest)
    | depth + 1, '{' :: s =>
      match skipSpace s with
      | '}' :: rest => .ok (.object [], rest)
      | s => (membersFrom fuel depth s).map fun (members, rest) => (.object members, rest)
    | _, s => scalar s

/-- The items of an array from the first one to the closing bracket. -/
def itemsFrom : (fuel depth : Nat) → Text → Reading (List Value)
  | 0, _, _ => .error .malformed
  | fuel + 1, depth, s =>
    (valueFrom fuel depth s).bind fun (item, s) =>
      match skipSpace s with
      | ']' :: rest => .ok ([item], rest)
      | ',' :: s =>
        (itemsFrom fuel depth (skipSpace s)).map fun (items, rest) => (item :: items, rest)
      | _ => .error .malformed

/-- The members of an object from the first one to the closing brace. -/
def membersFrom : (fuel depth : Nat) → Text → Reading (List (LooseText × Value))
  | 0, _, _ => .error .malformed
  | fuel + 1, depth, '"' :: s =>
    (stringBody s).bind fun (key, s) =>
      match skipSpace s with
      | ':' :: s =>
        (valueFrom fuel depth (skipSpace s)).bind fun (value, s) =>
          match skipSpace s with
          | '}' :: rest => .ok ([(key, value)], rest)
          | ',' :: s =>
            (membersFrom fuel depth (skipSpace s)).map fun (more, rest) =>
              ((key, value) :: more, rest)
          | _ => .error .malformed
      | _ => .error .malformed
  | _ + 1, _, _ => .error .malformed

end

/-- The value that a text is. -/
def Value.read (s : Text) : Except ReadFault Value := do
  let (value, rest) ← valueFrom (s.length + 1) maxDepth (skipSpace s)
  if (skipSpace rest).isEmpty then return value else throw .malformed

end Reckoner.Json
