import Reckoner.Expression.Token
import Reckoner.Number.Elementary

/-! The operators between two operands: how tightly they bind, to which side they group, and what
they compute. -/

namespace Reckoner

/-- The side to which a chain of one operator groups. -/
inductive Associativity
  | left
  | right
  deriving DecidableEq, Repr

namespace Operator

/-- How tightly the operator binds its operands. -/
def precedence : Operator → Nat
  | add | sub => 2
  | mul | div => 3
  | pow => 4

/-- Powers group to the right, all other operators to the left. -/
def associativity : Operator → Associativity
  | add | sub | mul | div => .left
  | pow => .right

/-- Whether a pending entry that binds as tightly as `top` takes its operands before this operator
does. -/
def yieldsTo (op : Operator) (top : Double) : Bool :=
  match op.associativity with
  | .left => Double.le (.ofNat op.precedence) top
  | .right => Double.lt (.ofNat op.precedence) top

/-- The result of the operator. -/
def apply (op : Operator) (a b : Double) : Except MathFault Double :=
  match op with
  | add => .ok (a.add b)
  | sub => .ok (a.sub b)
  | mul => .ok (a.mul b)
  | div => a.div b
  | pow => a.pow b

end Operator

/-- Negations and functions before a bare operand bind more tightly than products and less tightly
than powers: it is three and a half. -/
def prefixedPrecedence : Double := .finite false 0x400c000000000000 (by decide)

end Reckoner
