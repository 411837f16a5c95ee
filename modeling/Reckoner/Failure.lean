import Reckoner.Expression.Error

/-! Failures, as they are reported: the stage that failed, the words, and a hint on what to do.  A
hint depends on the stage and on the words that the stage chooses. -/

namespace Reckoner

/-- The part of the calculator that failed. -/
inductive Stage
  | lex
  | parse
  | eval
  | config
  | translator
  | history
  /-- A failure that is told by a name of its own. -/
  | other (name : Text)
  deriving DecidableEq, Repr

/-- A failure of the calculator.  One without words has no `text`.  A lexical one may tell the
characters that it is about and where they are, and one of an evaluation the name or number that it
is about. -/
structure Failure where
  stage : Stage
  text : Option Text
  lexeme : Option Text := none
  position : Option Int := none
  subject : Option Text := none
  deriving DecidableEq, Repr

/-- The name of the failures of a stage. -/
def Stage.name : Stage → Text
  | .lex => "LexError"
  | .parse => "ParseError"
  | .eval => "EvalError"
  | .config => "CalcConfigError"
  | .translator => "TranslationError"
  | .history => "HistoryError"
  | .other name => name

/-- The word for a stage in machine-readable output. -/
def Stage.kind : Stage → Text
  | .lex => "lex"
  | .parse => "parse"
  | .eval => "eval"
  | .config => "config"
  | .translator => "translation"
  | .history => "history"
  | .other name => name

namespace Failure

/-- The words of a failure. -/
def message (failure : Failure) : Text := failure.text.getD []

/-- A lexical failure: the reason, then the characters and their offset as far as they are known. -/
def lexical (reason : Text) (lexeme : Option Text) (position : Option Int) : Failure where
  stage := .lex
  text := some (reason ++ ((lexeme.map fun s => ": " ++ Text.quoted s).getD []) ++
    ((position.map fun p => " at position " ++ Text.ofInt p).getD []))
  lexeme := lexeme
  position := position

/-- A failure of an evaluation: the reason, then what it is about, if that has a character. -/
def evaluation (reason : Text) (subject : Option Text) : Failure where
  stage := .eval
  text := some (reason ++
    match subject with
    | none | some [] => []
    | some s => ": " ++ s)
  subject := subject

/-- A failure to use the settings. -/
def config (text : Text) : Failure := { stage := .config, text := some text }

/-- A failure to get an expression from a request. -/
def translator (text : Text) : Failure := { stage := .translator, text := some text }

/-- A failure to keep the history. -/
def history (text : Text) : Failure := { stage := .history, text := some text }

end Failure

/-- The failure that an error of an expression is reported as. -/
def ExpressionError.failure : ExpressionError → Failure
  | .lex error => .lexical error.reason.message (some error.lexeme) (some error.position)
  | .parse error => { stage := .parse, text := some error.message }
  | .eval error => .evaluation error.reason error.subject?

/-- What an equation is met with. -/
def equationNotice : Text :=
  "equation solving is not built-in; evaluating as an expression"

/-- What to do about a lexical failure. -/
def lexHint (text : Text) (lexeme : Option Text) : Text :=
  if Text.startsWith "invalid number" text then "a number may contain at most one decimal point"
  else if lexeme = some ['='] then equationNotice
  else "use digits, + - * / ^, ! %, parentheses and function names only"

/-- What to do about a failure of the postfix form. -/
def parseHint? (text : Text) : Option Text :=
  if Text.contains "parentheses" text then some "check that every '(' has a matching ')'"
  else if Text.contains "comma" text then
    some "commas are only allowed inside function-call parentheses"
  else none

/-- What to do about a failure of an evaluation. -/
def evalHint? (text : Text) : Option Text :=
  if Text.startsWith "unknown function" text then
    some "supported functions: sin cos tan csc sec cot ln log sqrt; constants: pi e"
  else if Text.contains "factorial" text then
    some "factorial needs a whole number between 0 and 170"
  else if Text.startsWith "non-finite" text then
    some "the result is undefined or too large (division by zero, log of 0, ...)"
  else if Text.startsWith "stack underflow" text then some "an operator is missing an operand"
  else if Text.startsWith "invalid expression" text then
    some "operands must be joined by operators (there is no implicit multiplication)"
  else none

namespace Failure

/-- What to do about a failure. -/
def hint? (failure : Failure) : Option Text :=
  match failure.stage with
  | .lex => some (lexHint failure.message failure.lexeme)
  | .parse => parseHint? failure.message
  | .eval => evalHint? failure.message
  | .config =>
    if Text.contains "Missing API key" failure.message then
      some "export the key in your shell or switch nl.provider to 'rules'"
    else some "check rpncalc.toml"
  | .translator =>
    some "rephrase the request or use \x60rpncalc eval\x60 with an explicit expression"
  | .history =>
    some "check that history.path in rpncalc.toml points to a writable location"
  | .other _ => none

end Failure

/-- The words of an error, and its name with its arguments where there are none. -/
def wordsOr (name : Text) : Option Text → Text
  | none => name ++ "()"
  | some [] => name ++ "('')"
  | some (c :: s) => c :: s

end Reckoner
