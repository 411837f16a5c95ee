import Reckoner.Expression.Error
import Reckoner.Text.Blank

/-! Reading the tokens of a text.  White space separates tokens and is skipped.  A number is a
maximal run of digits and points that starts with a digit, or with a point before a digit; a name is
a maximal run of letters and digits that starts with a letter; all other tokens are one
character. -/

namespace Reckoner

/-- The plain sign for one that a keypad or a text editor writes in its place: the division sign,
the multiplication sign, the minus sign and the long dash. -/
def keypadForm (c : Char) : Char :=
  match c with
  | '÷' => '/'
  | '×' => '*'
  | '−' => '-'
  | '—' => '-'
  | c => c

/-- The item of a single sign. -/
def Item.ofSign? : Char → Option Item
  | '(' => some .opening
  | ')' => some .closing
  | ',' => some .comma
  | '!' => some (.suffix .factorial)
  | '%' => some (.suffix .percent)
  | c => (Operator.ofSymbol? c).map .operator

/-- Whether `c` belongs to a run of digits and points. -/
def isNumeral (c : Char) : Bool := c.isDigit || c == '.'

/-- Whether a number starts with `c` where `rest` follows. -/
def startsNumber (c : Char) (rest : Text) : Bool :=
  c.isDigit || (c == '.' && (rest.head?.any Char.isDigit))

/-- The value of a run of digits with at most one point. -/
def literalValue (literal : Text) : Double := (Decimal.ofLiteral literal).toDouble false

/-- The tokens of a text whose first character is at `position`. -/
def scanFrom (position : Nat) : Text → Except LexError (List Token)
  | [] => .ok []
  | c :: rest =>
    let sign := keypadForm c
    if isBlank sign then scanFrom (position + 1) rest
    else if startsNumber sign rest then
      let literal := c :: rest.takeWhile isNumeral
      if 1 < literal.count '.' then .error ⟨.invalidNumber, literal, position⟩
      else
        (scanFrom (position + literal.length) (rest.dropWhile isNumeral)).map
          (⟨.number (literalValue literal), position⟩ :: ·)
    else if sign.isAlpha then
      let word := c :: rest.takeWhile Char.isAlphanum
      (scanFrom (position + word.length) (rest.dropWhile Char.isAlphanum)).map
        (⟨.name (word.map Char.toLower), position⟩ :: ·)
    else
      match Item.ofSign? sign with
      | some item => (scanFrom (position + 1) rest).map (⟨item, position⟩ :: ·)
      | none => .error ⟨.unexpectedCharacter, [c], position⟩
  termination_by s => s.length
  decreasing_by
    · simp
    · have := (List.dropWhile_suffix isNumeral : _ <:+ rest).length_le
      simp only [List.length_cons]
      omega
    · have := (List.dropWhile_suffix Char.isAlphanum : _ <:+ rest).length_le
      simp only [List.length_cons]
      omega
    · simp

/-- The tokens of a text. -/
def scan (s : Text) : Except LexError (List Token) := scanFrom 0 s

end Reckoner
