import Reckoner.Expression.Evaluate
import Reckoner.Number.Reading
import Reckoner.Text.Integer

/-! The evaluation of a text with every partial operation in its place: an index, a key, the top of
a stack, the reading of a number and arithmetic have a result or halt with a slip.  A guard before
such an operation is only that, a test; that it keeps the operation from slipping is for a proof.
The operators and functions are parameters, which may fail and may have any result, and only their
faults are caught. -/

namespace Reckoner

/-- What a partial operation halts with where it has no result. -/
inductive Slip
  /-- A table without an entry under the key. -/
  | noKey
  /-- A list without an element at the index. -/
  | noIndex
  /-- A text that is no number, a number that has no text or is no integer, a list that has not as
  many elements as are asked for, or an argument outside the domain of a function. -/
  | badValue
  | zeroDivision
  | overflow
  /-- A loop that does not advance and would never end. -/
  | noProgress
  deriving DecidableEq, Repr

/-- How an evaluation ends without a value. -/
inductive Halt
  | slip (slip : Slip)
  | error (error : ExpressionError)
  deriving DecidableEq, Repr

/-- A computation with partial operations. -/
abbrev Checked (α : Type) := Except Halt α

/-- What a token is, apart from its text or number. -/
inductive Kind
  | number
  | name
  | opening
  | closing
  | comma
  | suffix
  | operator
  | negation
  deriving DecidableEq, Repr

/-- The number or the text of a token. -/
inductive Content
  | number (value : Double)
  | text (text : Text)
  deriving DecidableEq, Repr

/-- A token whose kind does not tell what it contains, so that operators and functions are looked
up. -/
structure RawToken where
  kind : Kind
  content : Content
  position : Int
  deriving DecidableEq, Repr

/-- The kind of an item. -/
def Item.kind : Item → Kind
  | .number _ => .number
  | .name _ => .name
  | .opening => .opening
  | .closing => .closing
  | .comma => .comma
  | .suffix _ => .suffix
  | .operator _ => .operator
  | .negation => .negation

/-- The number of an item, or its text as it stands in a text that is scanned. -/
def Item.content : Item → Content
  | .number value => .number value
  | .name word => .text word
  | .opening => .text ['(']
  | .closing => .text [')']
  | .comma => .text [',']
  | .suffix mark => .text [mark.symbol]
  | .operator op => .text [op.symbol]
  | .negation => .text ['-']

/-- A token with its item taken apart. -/
def Token.raw (token : Token) : RawToken := ⟨token.item.kind, token.item.content, token.position⟩

/-- What the operators and functions compute.  Each may fail as arithmetic fails, on any arguments,
and each may have any result, also an infinite one or one that is no number. -/
structure Operations where
  binary : Operator → Double → Double → Except MathFault Double
  unary : Function → Double → Except MathFault Double

/-- The arithmetic and the functions of this library. -/
def Operations.standard : Operations := ⟨Operator.apply, Function.apply⟩

/-- The slip of an operation that has no result. -/
def MathFault.slip : MathFault → Slip
  | .divisionByZero => .zeroDivision
  | .overflow => .overflow
  | .domain => .badValue

/-- Whether the call of an operator or function catches the slip. -/
def Slip.isCaught : Slip → Bool
  | .badValue | .zeroDivision | .overflow => true
  | .noKey | .noIndex | .noProgress => false

namespace Kind

/-- Whether a minus after a token of this kind is a negation. -/
def awaitsOperand : Kind → Bool
  | operator | opening | comma => true
  | _ => false

/-- Whether a token of this kind stands before its one operand. -/
def isPrefixed : Kind → Bool
  | name | negation => true
  | _ => false

end Kind

namespace Checked

section Partial

variable {α : Type}

/-- A halt with a slip. -/
def slip (slip : Slip) : Checked α := .error (.slip slip)

/-- A halt with an error of the expression. -/
def fail (error : ExpressionError) : Checked α := .error (.error error)

/-- The element at an index. -/
def element (list : List α) (index : Nat) : Checked α :=
  match list[index]? with
  | some a => return a
  | none => slip .noIndex

/-- What a table has under a key. -/
def entry (table : List (Text × α)) (key : Text) : Checked α :=
  match table.lookup key with
  | some a => return a
  | none => slip .noKey

/-- The number that a text stands for. -/
def reading (text : Text) : Checked Double :=
  match Double.ofText? text with
  | some value => return value
  | none => slip .badValue

end Partial

/-! ### Tables -/

/-- The kinds of the signs that are no operators. -/
def punctuation : List (Text × Kind) :=
  [("(".toList, .opening), (")".toList, .closing), (",".toList, .comma)]

/-- The operators by their signs. -/
def operators : List (Text × Operator) :=
  [("+".toList, .add), ("-".toList, .sub), ("*".toList, .mul), ("/".toList, .div),
    ("^".toList, .pow)]

/-- The constants by their names. -/
def constants : List (Text × Double) := [("pi".toList, .pi), ("e".toList, .e)]

/-- The functions by their names. -/
def functions : List (Text × Function) := Function.all.map fun f => (f.name, f)

/-! ### Tokens -/

/-- The first index from `i` on whose character does not satisfy `p`, or the length. -/
def runEnd (p : Char → Bool) (text : Text) (i : Nat) : Checked Nat :=
  if i < text.length then do
    if p (← element text i) then runEnd p text (i + 1) else return i
  else return i
  termination_by text.length - i

/-- The characters from `start` to before `stop`. -/
def slice (text : Text) (start stop : Nat) : Text := (text.drop start).take (stop - start)

/-- The number that starts at an index, and the index after it. -/
def scanNumber (text : Text) (start : Nat) : Checked (RawToken × Nat) := do
  let stop ← runEnd isNumeral text start
  let literal := slice text start stop
  if 1 < literal.count '.' then fail (.lex ⟨.invalidNumber, literal, start⟩)
  else return (⟨.number, .number (← reading literal), start⟩, stop)

/-- The name that starts at an index, and the index after it. -/
def scanName (text : Text) (start : Nat) : Checked (RawToken × Nat) := do
  let stop ← runEnd Char.isAlphanum text (start + 1)
  return (⟨.name, .text ((slice text start stop).map Char.toLower), start⟩, stop)

/-- The token of one sign. -/
def scanSign (text : Text) (sign : Char) (i : Nat) : Checked (RawToken × Nat) := do
  if (punctuation.lookup [sign]).isSome then
    return (⟨← entry punctuation [sign], .text [sign], i⟩, i + 1)
  else if sign ∈ "!%".toList then return (⟨.suffix, .text [sign], i⟩, i + 1)
  else if sign ∈ "+-*/^".toList then return (⟨.operator, .text [sign], i⟩, i + 1)
  else fail (.lex ⟨.unexpectedCharacter, [← element text i], i⟩)

/-- The character after the one at an index, if there is one. -/
def following (text : Text) (i : Nat) : Checked Text := do
  if i + 1 < text.length then return [← element text (i + 1)] else return []

/-- The token that starts with `sign` at an index, and the index after it. -/
def scanItem (text : Text) (sign : Char) (i : Nat) : Checked (RawToken × Nat) := do
  if startsNumber sign (← following text i) then scanNumber text i
  else if sign.isAlpha then scanName text i
  else scanSign text sign i

/-- The token at an index, or none where there is white space, and the index to go on from. -/
def scanToken (text : Text) (i : Nat) : Checked (Option RawToken × Nat) := do
  let sign := keypadForm (← element text i)
  if isBlank sign then return (none, i + 1)
  else
    let (token, stop) ← scanItem text sign i
    return (some token, stop)

/-- The tokens from an index on. -/
def scanFrom (text : Text) (i : Nat) : Checked (List RawToken) :=
  if i < text.length then do
    let (token?, stop) ← scanToken text i
    if i < stop then return token?.toList ++ (← scanFrom text stop) else slip .noProgress
  else return []
  termination_by text.length - i

/-- The offset in `s` of the character at `position` of its normalized form. -/
def sourcePosition (s : Text) (position : Nat) : Checked Nat :=
  let offsets := offsetsFrom 0 s
  if position < offsets.length then element offsets position else return position

/-! ### Postfix form -/

/-- The number of a token. -/
def numberOf : Content → Checked Double
  | .number value => return value
  | .text text => reading text

/-- The text of a token, also where it contains a number. -/
def textOf : Content → Text
  | .number value => value.text
  | .text text => text

/-- The top of a stack. -/
def top (stack : List RawToken) : Checked RawToken := element stack 0

/-- The top of a stack and what is below it. -/
def pop : List RawToken → Checked (RawToken × List RawToken)
  | [] => slip .noIndex
  | waiting :: below => return (waiting, below)

theorem length_pop {stack below : List RawToken} {waiting : RawToken}
    (h : pop stack = .ok (waiting, below)) : below.length < stack.length := by
  cases stack with
  | nil => cases h
  | cons =>
    cases h
    exact Nat.lt_succ_self _

/-- The tokens on top of a stack as far as `p` holds, and the stack below them. -/
def popWhile (p : RawToken → Checked Bool) (stack : List RawToken) :
    Checked (List RawToken × List RawToken) := do
  if stack.isEmpty then return ([], stack)
  else if ← p (← top stack) then
    match _ : pop stack with
    | .error halt => .error halt
    | .ok (waiting, below) =>
      let (popped, rest) ← popWhile p below
      return (waiting :: popped, rest)
  else return ([], stack)
  termination_by stack.length
  decreasing_by exact length_pop ‹_›

/-- How tightly a waiting token binds. -/
def precedence? (waiting : RawToken) : Checked (Option Double) := do
  match waiting.kind with
  | .operator => return some (.ofNat (← entry operators (textOf waiting.content)).precedence)
  | .name | .negation => return some prefixedPrecedence
  | _ => return none

/-- Whether a waiting token takes its operands before the operator that comes. -/
def isAfter (op : Operator) (waiting : RawToken) : Checked Bool := do
  match ← precedence? waiting with
  | some top => return op.yieldsTo top
  | none => return false

/-- Whether a waiting token lies within the innermost open parenthesis. -/
def isInside (waiting : RawToken) : Checked Bool := return waiting.kind != .opening

/-- Whether a token is a minus before its operand. -/
def isNegation (previous : Option RawToken) (token : RawToken) : Bool :=
  token.content == .text ['-'] && previous.all (·.kind.awaitsOperand)

/-- The function or negation on top of the stack, and the stack below it. -/
def completed (stack : List RawToken) : Checked (List RawToken × List RawToken) := do
  if stack.isEmpty then return ([], stack)
  else if (← top stack).kind.isPrefixed then
    let (call, below) ← pop stack
    return ([call], below)
  else return ([], stack)

/-- The tokens that a token writes, and the stack that it leaves. -/
def convert (stack : List RawToken) (previous : Option RawToken) (token : RawToken) :
    Checked (List RawToken × List RawToken) := do
  match token.kind with
  | .number | .suffix => return ([token], stack)
  | .name =>
    if (constants.lookup (textOf token.content)).isSome then
      let value ← entry constants (textOf token.content)
      return ([⟨.number, .number value, token.position⟩], stack)
    else return ([], token :: stack)
  | .comma =>
    let (inside, outside) ← popWhile isInside stack
    if outside.isEmpty then fail (.parse .misplacedComma) else return (inside, outside)
  | .operator =>
    if isNegation previous token then
      return ([], ⟨.negation, .text ['-'], token.position⟩ :: stack)
    else
      let op ← entry operators (textOf token.content)
      let (first, rest) ← popWhile (isAfter op) stack
      return (first, token :: rest)
  | .opening => return ([], token :: stack)
  | .closing =>
    let (inside, outside) ← popWhile isInside stack
    if outside.isEmpty then fail (.parse .mismatchedParentheses)
    else
      let (_, below) ← pop outside
      let (call, rest) ← completed below
      return (inside ++ call, rest)
  | .negation => fail (.parse .unexpectedToken)

/-- What waits at the end of the tokens. -/
def drain (stack : List RawToken) : Checked (List RawToken) := do
  if stack.isEmpty then return []
  else
    match _ : pop stack with
    | .error halt => .error halt
    | .ok (waiting, below) =>
      if waiting.kind = .opening then fail (.parse .mismatchedParentheses)
      else return waiting :: (← drain below)
  termination_by stack.length
  decreasing_by exact length_pop ‹_›

/-- The postfix form of the tokens, after those that the stack waits for. -/
def toPostfixFrom (stack : List RawToken) (previous : Option RawToken) :
    List RawToken → Checked (List RawToken)
  | [] => drain stack
  | token :: tokens => do
    let (written, stack) ← convert stack previous token
    return written ++ (← toPostfixFrom stack (some token) tokens)

/-- The postfix form of a text.  Only the errors of the scanner get a place in the text as it was
given. -/
def explain (s : Text) : Checked (List RawToken) :=
  match scanFrom (normalized s) 0 with
  | .error (.error (.lex error)) => do
    fail (.lex { error with position := ← sourcePosition s error.position })
  | .error halt => .error halt
  | .ok tokens => toPostfixFrom [] none tokens

/-! ### Text of a postfix form -/

/-- The integer part of a number. -/
def truncated : Double → Checked Int
  | .finite negative ordinal _ =>
    let whole := unitsOf ordinal / unitsPerOne
    return if negative then -(whole : Int) else whole
  | .infinite _ => slip .overflow
  | .nan => slip .badValue

/-- An integer in decimal digits. -/
def integerText (n : Int) : Checked Text :=
  match Text.ofInt? n with
  | some text => return text
  | none => slip .badValue

/-- A token in a list of tokens. -/
def tokenText (token : RawToken) : Checked Text := do
  match token.kind with
  | .number =>
    let value ← numberOf token.content
    if value.toInt?.isSome && value.abs.lt (.ofNat (Nat.pow 10 15)) then
      integerText (← truncated value)
    else return value.text
  | .negation => return "neg".toList
  | _ => return textOf token.content

/-- The tokens with a space between neighbours. -/
def tokensText (tokens : List RawToken) : Checked Text := do
  return Text.joined " " (← tokens.mapM tokenText)

/-! ### Value -/

/-- An operation that slips where it has no result. -/
def raised (result : Except MathFault Double) : Checked Double :=
  result.mapError fun fault => .slip fault.slip

/-- The double, if it is finite. -/
def finite (value : Double) : Checked Double :=
  if value.isFinite then return value else fail (.eval .nonFinite)

/-- The result of a call, whose own slips are caught. -/
def called (result : Checked Double) : Checked Double :=
  match result with
  | .ok value => finite value
  | .error (.slip slip) =>
    if slip.isCaught then fail (.eval .nonFinite) else .error (.slip slip)
  | .error (.error error) => .error (.error error)

/-- The double of a natural number. -/
def doubleOf (n : Nat) : Checked Double :=
  if (Double.ofNat n).isFinite then return .ofNat n else slip .overflow

/-- The factorial of a whole number from 0 to 170. -/
def factorial (n : Double) : Checked Double := do
  if !n.isFinite || n.lt 0 then fail (.eval (.factorialArgument n))
  else if n.toInt?.isNone then fail (.eval (.factorialFraction n))
  else if (Double.ofNat maxFactorial).lt n then fail (.eval (.factorialTooLarge n))
  else
    (List.range ((← truncated n).toNat - 1)).foldlM
      (fun product k => do return product.mul (← doubleOf (k + 2))) 1

/-- The operands on top of a stack, the last one first, and the stack below them. -/
def operands (stack : List Double) (count : Nat) : Checked (List Double × List Double) :=
  if stack.length < count then fail (.eval .stackUnderflow)
  else return (stack.take count, stack.drop count)

/-- The one element of a list. -/
def single : List Double → Checked Double
  | [a] => return a
  | _ => slip .badValue

/-- The two elements of a list, the last one first. -/
def pair : List Double → Checked (Double × Double)
  | [b, a] => return (a, b)
  | _ => slip .badValue

/-- The argument of a function, in radians if it is an angle in degrees. -/
def angle (inDegrees : Bool) (a : Double) : Checked Double :=
  if inDegrees then raised ((a.mul .pi).div 180) else return a

/-- The stack of operands after a token. -/
def applyToken (operations : Operations) (degrees : Bool) (stack : List Double) (token : RawToken) :
    Checked (List Double) := do
  match token.kind with
  | .number => return (← finite (← numberOf token.content)) :: stack
  | .operator =>
    let (values, rest) ← operands stack 2
    let (a, b) ← pair values
    let op ← entry operators (textOf token.content)
    return (← called (raised (operations.binary op a b))) :: rest
  | .suffix =>
    let (values, rest) ← operands stack 1
    let a ← single values
    if token.content = .text ['!'] then return (← finite (← factorial a)) :: rest
    else return (← finite (← raised (a.div 100))) :: rest
  | .negation =>
    let (values, rest) ← operands stack 1
    return (← single values).neg :: rest
  | .name =>
    match functions.lookup (textOf token.content) with
    | none => fail (.eval (.unknownFunction (textOf token.content)))
    | some f =>
      let (values, rest) ← operands stack 1
      let a ← single values
      let argument ← angle (f.isAngular && degrees) a
      return (← called (raised (operations.unary f argument))) :: rest
  | .opening | .closing | .comma => fail (.eval .invalidExpression)

/-- The value of a postfix form. -/
def valueOf (operations : Operations) (degrees : Bool) (tokens : List RawToken) :
    Checked Double := do
  let stack ← tokens.foldlM (applyToken operations degrees) []
  if stack.length = 1 then element stack 0 else fail (.eval .invalidExpression)

/-- The value of a text, whose postfix form is written out on the way. -/
def evaluate (operations : Operations) (degrees : Bool) (s : Text) : Checked Double := do
  let form ← explain s
  let _ ← tokensText form
  valueOf operations degrees form

end Checked

end Reckoner
