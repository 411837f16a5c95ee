import Reckoner.Expression.Token
import Reckoner.Text.Quoted

/-! Why an expression has no tokens, no postfix form or no value. -/

namespace Reckoner

/-- A place where no token can be read. -/
inductive LexReason
  /-- A run of digits with more than one point. -/
  | invalidNumber
  /-- A character that starts no token. -/
  | unexpectedCharacter
  deriving DecidableEq, Repr

/-- The first place where no token can be read, with the run or the character found there. -/
structure LexError where
  reason : LexReason
  lexeme : Text
  position : Nat
  deriving DecidableEq, Repr

/-- Tokens that have no postfix form. -/
inductive ParseError
  | mismatchedParentheses
  /-- A comma outside all parentheses. -/
  | misplacedComma
  /-- A negation among the tokens of a text, where a minus is an operator. -/
  | unexpectedToken
  deriving DecidableEq, Repr

/-- A postfix form that has no value. -/
inductive EvalError
  | stackUnderflow
  /-- Operands that are left over, or an item that is no part of a postfix form. -/
  | invalidExpression
  | nonFinite
  | unknownFunction (name : Text)
  /-- The factorial of a negative or infinite number. -/
  | factorialArgument (n : Double)
  | factorialFraction (n : Double)
  | factorialTooLarge (n : Double)
  deriving DecidableEq, Repr

/-- The failure of one of the three stages of an evaluation. -/
inductive ExpressionError
  | lex (error : LexError)
  | parse (error : ParseError)
  | eval (error : EvalError)
  deriving DecidableEq, Repr

/-- The reason in words. -/
def LexReason.message : LexReason → Text
  | .invalidNumber => "invalid number"
  | .unexpectedCharacter => "unexpected character"

/-- The error in words. -/
def ParseError.message : ParseError → Text
  | .mismatchedParentheses => "mismatched parentheses"
  | .misplacedComma => "misplaced comma"
  | .unexpectedToken => "unexpected token: " ++ Text.quoted "-"

/-- The reason in words, without the name or number that it is about. -/
def EvalError.reason : EvalError → Text
  | .stackUnderflow => "stack underflow"
  | .invalidExpression => "invalid expression"
  | .nonFinite => "non-finite result"
  | .unknownFunction _ => "unknown function"
  | .factorialArgument _ => "invalid factorial argument"
  | .factorialFraction _ => "factorial requires an integer"
  | .factorialTooLarge _ => "factorial result too large"

/-- The name or number that the error is about. -/
def EvalError.subject? : EvalError → Option Text
  | .stackUnderflow | .invalidExpression | .nonFinite => none
  | .unknownFunction name => some name
  | .factorialArgument n | .factorialFraction n | .factorialTooLarge n => some n.text

end Reckoner
