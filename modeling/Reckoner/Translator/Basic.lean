import Reckoner.Expression.Evaluate
import Reckoner.Phrase.Spoken
import Reckoner.Program
import Reckoner.Text.Quoted

/-! Translators turn a request into an expression.  An answer that is no expression is asked for
again, with what was wrong with the answers before it; a translator that gives the same answer every
time is asked once. -/

namespace Reckoner

/-- A translator: whether it gives the same answer every time, and the program that answers a
request.  The notes, if there are any, say what was wrong with earlier answers. -/
structure Translator where
  deterministic : Bool
  answer : (request : Text) → (notes : Option (List Text)) → Program Text

/-- What a request has become: the last answer, how many there were, and what is wrong with it. -/
structure Candidate where
  attempts : Nat
  expression : Text
  errors : List Text
  deriving DecidableEq, Repr

/-- What keeps a text from having a postfix form. -/
def expressionErrors (text : Text) : List Text :=
  match explain text with
  | .ok _ => []
  | .error error => [error.failure.message]

/-- The note on an answer that was rejected. -/
def rejection (expression error : Text) : Text :=
  "previous answer " ++ Text.quoted expression ++ " was rejected: " ++ error

namespace Program

/-- The program of a translator, in which every fault is a failure. -/
def translating {α : Type} (program : Program α) : Program α := do
  match ← program.attempt with
  | .ok value => return value
  | .error fault => fail fault.translated

end Program

namespace Translator

/-- The translator by phrase rules. -/
def rules : Translator where
  deterministic := true
  answer request _ := return spokenExpression request

/-- At most `left` more attempts, after `made` of them, the answers of which got these notes. -/
def attemptsFrom (translator : Translator) (request : Text) (made : Nat)
    (notes : Option (List Text)) : (left : Nat) → Program Candidate
  | 0 => return ⟨made, [], []⟩
  | left + 1 => do
    let expression ← (translator.answer request notes).translating
    let errors := expressionErrors expression
    if errors.isEmpty || translator.deterministic || left = 0 then
      return ⟨made + 1, expression, errors⟩
    else
      translator.attemptsFrom request (made + 1)
        (some (notes.getD [] ++ errors.map (rejection expression))) left

/-- The candidate for a request after at most `limit` attempts.  It is the first answer that has a
postfix form, or else the last one. -/
def translateWithin (limit : Int) (translator : Translator) (request : Text) :
    Program Candidate :=
  translator.attemptsFrom request 0 none limit.toNat

/-- How often a translator is asked unless something else is said. -/
def usualAttempts : Int := 2

/-- The candidate for a request after the usual number of attempts. -/
def translate (translator : Translator) (request : Text) : Program Candidate :=
  translator.translateWithin usualAttempts request

end Translator

end Reckoner
