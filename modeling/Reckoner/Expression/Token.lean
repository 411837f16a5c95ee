import Reckoner.Number.Decimal
import Reckoner.Number.Layout

/-! Tokens: what an expression is made of, each at its place in the text. -/

namespace Reckoner

/-- The operators between two operands. -/
inductive Operator
  | add
  | sub
  | mul
  | div
  | pow
  deriving DecidableEq, Repr

/-- The operators after their operand. -/
inductive Suffix
  | factorial
  | percent
  deriving DecidableEq, Repr

/-- The content of a token.  A negation is a minus before its operand; the scanner reads it as the
operator of subtraction, and only the postfix form tells the two apart. -/
inductive Item
  | number (value : Double)
  | name (word : Text)
  | opening
  | closing
  | comma
  | suffix (mark : Suffix)
  | operator (symbol : Operator)
  | negation
  deriving DecidableEq, Repr

/-- An item and the offset at which it starts, or `-1` if it stands in no text. -/
structure Token where
  item : Item
  position : Int
  deriving DecidableEq, Repr

/-- The sign of an operator. -/
def Operator.symbol : Operator → Char
  | .add => '+'
  | .sub => '-'
  | .mul => '*'
  | .div => '/'
  | .pow => '^'

/-- The operator with this sign. -/
def Operator.ofSymbol? : Char → Option Operator
  | '+' => some .add
  | '-' => some .sub
  | '*' => some .mul
  | '/' => some .div
  | '^' => some .pow
  | _ => none

theorem Operator.ofSymbol?_symbol (op : Operator) : ofSymbol? op.symbol = some op := by
  cases op <;> rfl

/-- The sign of an operator after its operand. -/
def Suffix.symbol : Suffix → Char
  | .factorial => '!'
  | .percent => '%'

/-- A number in a list of tokens: a whole number below `10 ^ 15` has no point. -/
def numberText (value : Double) : Text :=
  match value.toInt? with
  | some n => if n.natAbs < Nat.pow 10 15 then Text.ofInt n else value.text
  | none => value.text

/-- An item in a list of tokens. -/
def Item.text : Item → Text
  | .number value => numberText value
  | .name word => word
  | .opening => "("
  | .closing => ")"
  | .comma => ","
  | .suffix mark => [mark.symbol]
  | .operator op => [op.symbol]
  | .negation => "neg"

/-- The tokens with a space between neighbours, such as `3 4 ! +`. -/
def tokensText (tokens : List Token) : Text := Text.joined " " (tokens.map (·.item.text))

end Reckoner
