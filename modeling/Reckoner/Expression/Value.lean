import Reckoner.Expression.Function
import Reckoner.Expression.Operator

/-! The value of a postfix form.  Its items are taken from left to right with a stack of operands:
a number goes on top, and an operator or function takes its operands from the top and puts its
result there. -/

namespace Reckoner

/-- The double, if it is finite. -/
def finite (value : Double) : Except EvalError Double :=
  if value.isFinite then .ok value else .error .nonFinite

/-- The result of an operation, if it has one that is finite. -/
def finiteResult : Except MathFault Double → Except EvalError Double
  | .ok value => finite value
  | .error _ => .error .nonFinite

/-- The result of a suffix. -/
def Suffix.apply (suffix : Suffix) (a : Double) : Except EvalError Double :=
  match suffix with
  | .factorial => a.factorial >>= finite
  | .percent => finiteResult (a.div 100)

/-- The result of a function, whose angle may be in degrees. -/
def Function.call (degrees : Bool) (f : Function) (a : Double) : Except EvalError Double :=
  finiteResult (if f.isAngular && degrees then radians a >>= f.apply else f.apply a)

/-- The stack after an item. -/
def applyItem (degrees : Bool) (stack : List Double) : Item → Except EvalError (List Double)
  | .number value => do return (← finite value) :: stack
  | .operator op =>
    match stack with
    | b :: a :: rest => do return (← finiteResult (op.apply a b)) :: rest
    | _ => .error .stackUnderflow
  | .suffix suffix =>
    match stack with
    | a :: rest => do return (← suffix.apply a) :: rest
    | [] => .error .stackUnderflow
  | .negation =>
    match stack with
    | a :: rest => .ok (a.neg :: rest)
    | [] => .error .stackUnderflow
  | .name word =>
    match Function.named? word, stack with
    | none, _ => .error (.unknownFunction word)
    | some f, a :: rest => do return (← f.call degrees a) :: rest
    | some _, [] => .error .stackUnderflow
  | .opening | .closing | .comma => .error .invalidExpression

/-- The stack after the tokens. -/
def applyTokens (degrees : Bool) (stack : List Double) (tokens : List Token) :
    Except EvalError (List Double) :=
  tokens.foldlM (fun stack token => applyItem degrees stack token.item) stack

/-- The value of a postfix form: the one operand that is left.  With `degrees`, every trigonometric
function takes its argument in degrees. -/
def valueOf (degrees : Bool) (tokens : List Token) : Except EvalError Double := do
  match ← applyTokens degrees [] tokens with
  | [value] => return value
  | _ => throw .invalidExpression

end Reckoner
