import Reckoner.Command.Reports
import Reckoner.Expression.Evaluate
import Reckoner.Expression.Shown
import Reckoner.Journal.Basic
import Reckoner.Settings.Discovery

/-! Steps that several commands take: evaluations with a log, and entries in the journal that the
settings name. -/

namespace Reckoner.Command

/-- The source of the log records of evaluations. -/
def logSource : Text := "rpncalc.engine"

/-- The stages of an evaluation. -/
def evaluationStages : List Stage := [.lex, .parse, .eval]

/-- The value, or the failure that is reported for an error. -/
def ofExpression {α : Type} : Except ExpressionError α → Program α
  | .ok value => return value
  | .error error => Program.fail error.failure

/-- The value of an expression, with log records of its postfix form and of the value. -/
def evaluated (angles : AngleUnit) (expression : Text) : Program Double := do
  let form ← ofExpression (explain expression)
  Program.log .debug logSource
    ("postfix for " ++ Text.quoted expression ++ ": " ++ tokensText form)
  let value ← ofExpression ((valueOf angles.isDegrees form).mapError .eval)
  Program.log .debug logSource
    ("result for " ++ Text.quoted expression ++ " (" ++ angles.name ++ "): " ++ value.text)
  return value

/-- The journal that the settings name. -/
def openJournal (settings : Settings) : Program Journal :=
  Journal.opened settings.journalPath settings.journalCapacity

/-- Adds an entry to the journal, if it is enabled.  A result that cannot be kept is still a
result. -/
def record (settings : Settings) (unrecorded : Bool) (expression result : Text) : Program Unit := do
  if settings.journalEnabled && !unrecorded then
    let addEntry : Program Unit := do
      let journal ← openJournal settings
      let _ ← journal.record expression result none
    orElse [.history] addEntry (fun failure => warn failure.message) pure

/-- The line for an entry. -/
def entryLine (entry : Entry) : LooseText := entry.expression ++ " = " ++ entry.result

/-- Prints entries, one a line. -/
def printEntries : List Entry → Program Unit
  | [] => return
  | entry :: entries => do
    Program.print (entryLine entry)
    printEntries entries

end Reckoner.Command
