import Reckoner.Expression.Lexer
import Reckoner.Expression.Postfix
import Reckoner.Expression.Value

/-! From a text to its postfix form and its value.  White space plays no part, not even between two
digits, and errors point into the text as it was given. -/

namespace Reckoner

/-- The text with plain signs for those of a keypad, and without white space. -/
def normalized (s : Text) : Text := Text.unspaced (s.map keypadForm)

/-- The offsets of the characters of `s` that are not white space, for a text whose first character
is at `position`. -/
def offsetsFrom (position : Nat) : Text → List Nat
  | [] => []
  | c :: s =>
    if isBlank c then offsetsFrom (position + 1) s else position :: offsetsFrom (position + 1) s

/-- The offset in `s` of the character at `position` of its normalized form. -/
def sourcePosition (s : Text) (position : Nat) : Nat :=
  ((offsetsFrom 0 s)[position]?).getD position

/-- The postfix form of a text. -/
def explain (s : Text) : Except ExpressionError (List Token) :=
  match scan (normalized s) with
  | .error error => .error (.lex { error with position := sourcePosition s error.position })
  | .ok tokens => (toPostfix tokens).mapError .parse

/-- The value of a text. -/
def evaluate (degrees : Bool) (s : Text) : Except ExpressionError Double := do
  (valueOf degrees (← explain s)).mapError .eval

end Reckoner
