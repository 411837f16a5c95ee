import Reckoner.Expression.Function
import Reckoner.Phrase.Wording
import Reckoner.Text.Digit

/-! Signs that go with a number: percentages of a number, square roots that are not closed, and
functions before a bare number.  A number here is a run of digits of any script, with a point and
more digits after it or not. -/

namespace Reckoner

/-- The longest number at the start of a text, and what follows it. -/
def number? (s : Text) : Option (Text × Text) :=
  let whole := s.takeWhile isDecimalDigit
  let rest := s.dropWhile isDecimalDigit
  if whole.isEmpty then none
  else
    match rest with
    | '.' :: more =>
      let fraction := more.takeWhile isDecimalDigit
      if fraction.isEmpty then some (whole, rest)
      else some (whole ++ '.' :: fraction, more.dropWhile isDecimalDigit)
    | _ => some (whole, rest)

/-- What follows the sign `c`, if the text starts with it. -/
def afterSign? (c : Char) : Text → Option Text
  | [] => none
  | d :: s => if d = c then some s else none

/-- Finds `n % of m` between numbers, for which it puts `(n/100)*m`. -/
def percentage : Reader := fun _ s => do
  let (n, rest) ← number? s
  let rest ← afterSign? '%' rest.skipBlanks
  let rest ← rest.skipBlanks.afterWord? "of"
  let (m, rest) ← number? rest.skipBlanks
  return .upTo ("(" ++ n ++ "/100)*" ++ m) s rest

/-- Whether a number before `rest` ends there, with no parenthesis closed after it. -/
def leavesOpen (rest : Text) : Bool :=
  !(rest.head?.any fun c => isDecimalDigit c || c == '.') && rest.skipBlanks.head? != some ')'

/-- Finds a square root of a number whose parenthesis is not closed after it, and closes it. -/
def openRoot : Reader := fun _ s => do
  let rest ← s.afterWord? "sqrt"
  let rest ← afterSign? '(' rest
  let (n, rest) ← number? rest.skipBlanks
  if leavesOpen rest then return .upTo ("sqrt(" ++ n ++ ")") s rest else none

/-- The number at the start of a text that ends with a word, and what follows it.  Before a word
character the fraction of a number is left out, since its point ends the word. -/
def wordNumber? (s : Text) : Option (Text × Text) := do
  let (n, rest) ← number? s
  if endsWord rest then return (n, rest)
  else
    let whole := s.takeWhile isDecimalDigit
    if whole.length = n.length then none else return (whole, s.drop whole.length)

/-- What follows white space, if the text starts with it. -/
def afterGap? : Text → Option Text
  | [] => none
  | c :: s => if isBlank c then some (Text.skipBlanks s) else none

/-- The function at the start of a text with a bare number after it: the words of the text for the
function, the number, and what follows. -/
def call? (f : Function) (s : Text) : Option (Text × Text × Text) := do
  let rest ← s.afterWord? f.name
  let (n, rest) ← wordNumber? (← afterGap? rest)
  return (s.take f.name.length, n, rest)

/-- Finds a function before a bare number, which it puts into parentheses. -/
def bareCall : Reader := fun before s =>
  if startsWord before then
    (Function.all.findSome? fun f => call? f s).map fun (f, n, rest) =>
      .upTo (f ++ "(" ++ n ++ ")") s rest
  else none

/-- The text with percentages of numbers expanded and open square roots closed. -/
def expandSigns (s : Text) : Text := substitute openRoot (substitute percentage s)

end Reckoner
