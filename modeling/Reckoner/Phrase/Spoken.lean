import Reckoner.Phrase.Numbers
import Reckoner.Phrase.Rules
import Reckoner.Text.Lowercase

/-! From a spoken request to an expression.  The result is a candidate: whether it is an expression
is for the evaluation to tell. -/

namespace Reckoner

/-- The request in lower case, without question marks and without white space at its ends. -/
def plainRequest (s : Text) : Text := Text.stripped ((lower s).filter (· != '?'))

/-- The candidate for a request.  Functions get their parentheses while white space still stands
between them and their numbers. -/
def spokenExpression (s : Text) : Text :=
  let signs := expandSigns (applyRules Rule.all (plainRequest s))
  Text.joined " " (Text.words (fillers.apply (substitute bareCall signs)))

end Reckoner
