import Reckoner.Expression.Error
import Reckoner.Number.Elementary

/-! The functions of one argument, and the factorial. -/

namespace Reckoner

/-- The functions that an expression can name. -/
inductive Function
  | sin
  | cos
  | tan
  | csc
  | sec
  | cot
  | ln
  | log
  | sqrt
  deriving DecidableEq, Repr

namespace Function

/-- All functions. -/
def all : List Function := [sin, cos, tan, csc, sec, cot, ln, log, sqrt]

/-- The name of a function. -/
def name : Function → Text
  | sin => "sin"
  | cos => "cos"
  | tan => "tan"
  | csc => "csc"
  | sec => "sec"
  | cot => "cot"
  | ln => "ln"
  | log => "log"
  | sqrt => "sqrt"

/-- The function with this name. -/
def named? (word : Text) : Option Function := all.find? fun f => f.name == word

/-- Whether the argument is an angle. -/
def isAngular : Function → Bool
  | sin | cos | tan | csc | sec | cot => true
  | ln | log | sqrt => false

/-- One divided by a result. -/
def inverted (result : Except MathFault Double) : Except MathFault Double := do
  Double.div 1 (← result)

/-- The result of the function; `log` has the base ten. -/
def apply (f : Function) (x : Double) : Except MathFault Double :=
  match f with
  | sin => x.sin
  | cos => x.cos
  | tan => x.tan
  | csc => inverted x.sin
  | sec => inverted x.cos
  | cot => inverted x.tan
  | ln => x.ln
  | log => x.log10
  | sqrt => x.sqrt

end Function

/-- An angle given in degrees, in radians: the angle times pi, divided by 180. -/
def radians (degrees : Double) : Except MathFault Double := (degrees.mul .pi).div 180

/-- The largest number whose factorial is below the largest double. -/
def maxFactorial : Nat := 170

/-- The product of the numbers from 2 to `n`, rounded after each factor. -/
def factorialProduct (n : Nat) : Double :=
  (List.range (n - 1)).foldl (fun product k => product.mul (.ofNat (k + 2))) 1

/-- The factorial of a whole number from 0 to 170. -/
def Double.factorial (n : Double) : Except EvalError Double :=
  if !n.isFinite || n.lt 0 then .error (.factorialArgument n)
  else
    match n.toInt? with
    | none => .error (.factorialFraction n)
    | some k =>
      if (maxFactorial : Int) < k then .error (.factorialTooLarge n)
      else .ok (factorialProduct k.toNat)

end Reckoner
