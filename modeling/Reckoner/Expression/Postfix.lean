import Reckoner.Expression.Error
import Reckoner.Expression.Operator

/-! The postfix form of an expression, in which each operator follows its operands.  Operators,
functions and open parentheses wait on a stack until their last operand has been read. -/

namespace Reckoner

/-- The value of a constant's name. -/
def constant? (word : Text) : Option Double :=
  if word = "pi".toList then some .pi else if word = "e".toList then some .e else none

namespace Item

/-- Whether the item is an open parenthesis. -/
def isOpening : Item → Bool
  | opening => true
  | _ => false

/-- Whether the item stands before its one operand: a function or a negation. -/
def isPrefixed : Item → Bool
  | name _ | negation => true
  | _ => false

/-- How tightly a waiting item binds; an open parenthesis keeps what is outside from what is
inside. -/
def precedence? : Item → Option Double
  | operator op => some (.ofNat op.precedence)
  | name _ | negation => some prefixedPrecedence
  | _ => none

/-- Whether a minus after this item is a negation. -/
def awaitsOperand : Item → Bool
  | operator _ | opening | comma => true
  | _ => false

end Item

/-- Whether a minus is a negation where `previous` is the item before it. -/
def negates (previous : Option Item) : Bool := previous.all Item.awaitsOperand

/-- Whether a waiting token takes its operands before the operator that comes. -/
def Operator.isAfter (op : Operator) (waiting : Token) : Bool :=
  match waiting.item.precedence? with
  | some top => op.yieldsTo top
  | none => false

/-- Whether a waiting token lies within the innermost open parenthesis. -/
def Token.isInside (waiting : Token) : Bool := !waiting.item.isOpening

/-- The function or negation on top of the stack, which a closed parenthesis completes, and the
stack below it. -/
def completed : List Token → List Token × List Token
  | [] => ([], [])
  | top :: below => if top.item.isPrefixed then ([top], below) else ([], top :: below)

/-- The postfix form of the tokens, after those that the stack waits for. -/
def toPostfixFrom (stack : List Token) (previous : Option Item) :
    List Token → Except ParseError (List Token)
  | [] => if stack.all Token.isInside then .ok stack else .error .mismatchedParentheses
  | token :: tokens =>
    match token.item with
    | .number _ | .suffix _ => (toPostfixFrom stack (some token.item) tokens).map (token :: ·)
    | .name word =>
      match constant? word with
      | some value =>
        (toPostfixFrom stack (some token.item) tokens).map (⟨.number value, token.position⟩ :: ·)
      | none => toPostfixFrom (token :: stack) (some token.item) tokens
    | .comma =>
      match stack.dropWhile Token.isInside with
      | [] => .error .misplacedComma
      | outside =>
        (toPostfixFrom outside (some token.item) tokens).map (stack.takeWhile Token.isInside ++ ·)
    | .operator op =>
      if op = .sub && negates previous then
        toPostfixFrom (⟨.negation, token.position⟩ :: stack) (some token.item) tokens
      else
        (toPostfixFrom (token :: stack.dropWhile op.isAfter) (some token.item) tokens).map
          (stack.takeWhile op.isAfter ++ ·)
    | .opening => toPostfixFrom (token :: stack) (some token.item) tokens
    | .closing =>
      match stack.dropWhile Token.isInside with
      | [] => .error .mismatchedParentheses
      | _ :: below =>
        (toPostfixFrom (completed below).2 (some token.item) tokens).map
          (stack.takeWhile Token.isInside ++ (completed below).1 ++ ·)
    | .negation => .error .unexpectedToken

/-- The postfix form of the tokens. -/
def toPostfix (tokens : List Token) : Except ParseError (List Token) :=
  toPostfixFrom [] none tokens

end Reckoner
