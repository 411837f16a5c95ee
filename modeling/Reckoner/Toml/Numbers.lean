import Reckoner.Number.Decimal
import Reckoner.Text.Reading
import Reckoner.Toml.Value

/-! Numbers, dates and times of TOML.  An underscore may stand between two digits of a number. -/

namespace Reckoner.Toml

/-- More digits after a digit, without the underscores between them, and what is left. -/
def moreDigits (isDigit : Char → Bool) : Text → Text × Text
  | [] => ([], [])
  | '_' :: d :: s =>
    if isDigit d then
      let (digits, rest) := moreDigits isDigit s
      (d :: digits, rest)
    else ([], '_' :: d :: s)
  | c :: s =>
    if isDigit c then
      let (digits, rest) := moreDigits isDigit s
      (c :: digits, rest)
    else ([], c :: s)

/-- The digits that a text starts with, if it starts with one, and what is left. -/
def digits? (isDigit : Char → Bool) : Text → Option (Text × Text)
  | [] => none
  | c :: s =>
    if isDigit c then
      let (digits, rest) := moreDigits isDigit s
      some (c :: digits, rest)
    else none

/-- The value of digits in a base of at most sixteen. -/
def valueIn (base : Nat) (digits : Text) : Nat :=
  digits.foldl (fun n c => n * base + (hexDigit? c).getD 0) 0

/-- Whether `c` is a digit in this base. -/
def isDigitIn (base : Nat) (c : Char) : Bool := (hexDigit? c).any (· < base)

/-- The bases other than ten, by the letters that announce them. -/
def baseOf? : Char → Option Nat
  | 'x' => some 16
  | 'o' => some 8
  | 'b' => some 2
  | _ => none

/-- The integer in another base than ten that a text starts with. -/
def basedInteger? : Text → Option (Int × Text)
  | '0' :: letter :: s =>
    match baseOf? letter with
    | some base =>
      (digits? (isDigitIn base) s).map fun (digits, rest) => (valueIn base digits, rest)
    | none => none
  | _ => none

/-- The sign that a text starts with, and what is left. -/
def sign : Text → Bool × Text
  | '-' :: s => (true, s)
  | '+' :: s => (false, s)
  | s => (false, s)

/-- The digits before the point: a zero alone, or digits that do not start with one. -/
def wholePart? : Text → Option (Text × Text)
  | '0' :: s => some (['0'], s)
  | s => digits? Char.isDigit s

/-- The digits after a point. -/
def fractionPart? : Text → Option (Text × Text)
  | '.' :: s => digits? Char.isDigit s
  | _ => none

/-- The exponent that a text starts with. -/
def exponentPart? : Text → Option (Int × Text)
  | [] => none
  | mark :: s =>
    if mark = 'e' || mark = 'E' then
      let (negative, s) := sign s
      (digits? Char.isDigit s).map fun (digits, rest) =>
        (if negative then -(digitsValue digits : Int) else digitsValue digits, rest)
    else none

/-- The decimal number that a text starts with, if it starts with one. -/
def decimalNumber? (s : Text) : Option (Reading Value) :=
  let (negative, s) := sign s
  match wholePart? s with
  | none => none
  | some (whole, s) =>
    let fraction := fractionPart? s
    let s := (fraction.map (·.2)).getD s
    let exponent := exponentPart? s
    let s := (exponent.map (·.2)).getD s
    some <|
      if fraction.isSome || exponent.isSome then
        let decimal := Decimal.ofDigits whole ((fraction.map (·.1)).getD [])
          ((exponent.map (·.1)).getD 0)
        .ok (.real (decimal.toDouble negative), s)
      else if maxIntegerDigits < whole.length then .error .numeralTooLong
      else .ok (.integer (if negative then -(digitsValue whole : Int) else digitsValue whole), s)

/-- The doubles that have names. -/
def namedReals : List (Text × Double) :=
  [("inf", .infinite false), ("nan", .nan), ("-inf", .infinite true), ("+inf", .infinite false),
    ("-nan", .nan), ("+nan", .nan)]

/-- The double with a name that a text starts with. -/
def namedReal? (s : Text) : Option (Double × Text) :=
  namedReals.findSome? fun (name, x) => (Text.after? name s).map fun rest => (x, rest)

/-- The number that a text starts with. -/
def number (s : Text) : Reading Value :=
  match basedInteger? s with
  | some (n, rest) => .ok (.integer n, rest)
  | none =>
    match decimalNumber? s with
    | some reading => reading
    | none =>
      match namedReal? s with
      | some (x, rest) => .ok (.real x, rest)
      | none => .error .malformed

/-! ### Dates and times -/

/-- The number that a text starts with in just two digits, if it lies within bounds. -/
def twoDigits? (least most : Nat) : Text → Option (Nat × Text)
  | a :: b :: s =>
    let n := digitsValue [a, b]
    if a.isDigit && b.isDigit && least ≤ n && n ≤ most then some (n, s) else none
  | _ => none

/-- How many days a month of a year has. -/
def monthLength (year month : Nat) : Nat :=
  if month = 2 then
    if year % 4 = 0 && (year % 100 != 0 || year % 400 = 0) then 29 else 28
  else if [4, 6, 9, 11].elem month then 30
  else 31

/-- The date that a text starts with, and whether there is such a day. -/
def date? (s : Text) : Option (Bool × Text) := do
  let (century, s) ← twoDigits? 0 99 s
  let (year, s) ← twoDigits? 0 99 s
  let (month, s) ← twoDigits? 1 12 (← Text.after? "-" s)
  let (day, s) ← twoDigits? 1 31 (← Text.after? "-" s)
  let year := century * 100 + year
  return (1 ≤ year && day ≤ monthLength year month, s)

/-- What follows the fraction of a second, if the text starts with one. -/
def afterFraction (s : Text) : Text :=
  match s with
  | '.' :: rest => if (rest.takeWhile Char.isDigit).isEmpty then s else rest.dropWhile Char.isDigit
  | _ => s

/-- What follows the time of day that a text starts with. -/
def afterTime? (s : Text) : Option Text := do
  let (_, s) ← twoDigits? 0 23 s
  let (_, s) ← twoDigits? 0 59 (← Text.after? ":" s)
  let (_, s) ← twoDigits? 0 59 (← Text.after? ":" s)
  return afterFraction s

/-- What follows the distance from universal time that a text starts with. -/
def afterOffset? : Text → Option Text
  | [] => none
  | c :: s =>
    if c = 'Z' || c = 'z' then some s
    else if c = '+' || c = '-' then do
      let (_, s) ← twoDigits? 0 23 s
      let (_, s) ← twoDigits? 0 59 (← Text.after? ":" s)
      return s
    else none

/-- What follows a time of day after a date, if the text starts with one. -/
def afterDateTime? : Text → Option Text
  | [] => none
  | c :: s =>
    if c = 'T' || c = 't' || c = ' ' then
      (afterTime? s).map fun rest => (afterOffset? rest).getD rest
    else none

/-- The moment that a text starts with, if it starts with one: a date, with a time or without, or a
time. -/
def moment? (s : Text) : Option (Reading Value) :=
  let written (rest : Text) : Value := .moment (s.take (s.length - rest.length))
  match date? s with
  | some (isDay, rest) =>
    let rest := (afterDateTime? rest).getD rest
    some (if isDay then .ok (written rest, rest) else .error .malformed)
  | none => (afterTime? s).map fun rest => .ok (written rest, rest)

end Reckoner.Toml
