import Reckoner.Command.Steps

/-! Sessions: one expression a line, and instructions that start with a colon.  A line that fails is
reported and changes nothing for the lines after it. -/

namespace Reckoner.Command

/-- What a line of a session asks for. -/
inductive Line
  | blank
  | quit
  | angles (unit : AngleUnit)
  | showHistory
  | unknown (instruction : Text)
  | expression (text : Text)
  deriving DecidableEq, Repr

/-- What a line without white space at its ends asks for. -/
def Line.ofStripped (line : Text) : Line :=
  if line.isEmpty then .blank
  else if [":q".toList, ":quit".toList, ":exit".toList].elem line then .quit
  else
    match AngleUnit.all.find? fun unit => ':' :: unit.name == line with
    | some unit => .angles unit
    | none =>
      if line = ":history".toList then .showHistory
      else if line.head? = some ':' then .unknown line
      else .expression line

/-- What a line asks for. -/
def Line.ofText (line : Text) : Line := ofStripped (Text.stripped line)

/-- What a session does with a result, how it shows the history, and what it prints before each
line. -/
structure Session where
  keep : (expression result : Text) → Program Unit
  showHistory : Program Unit
  prompt : Program Unit

namespace Session

/-- Evaluates an expression, and shows and keeps the result. -/
def evaluateLine (session : Session) (angles : AngleUnit) (expression : Text) : Program Unit :=
  orElse evaluationStages (evaluated angles expression)
    (fun failure => Program.complain failure.report)
    fun value => do
      Program.print (shown value)
      session.keep expression (shown value)

/-- Does what a line asks for.  The result is the unit of angles from then on, or none at the end of
the session. -/
def step (session : Session) (angles : AngleUnit) : Line → Program (Option AngleUnit)
  | .blank => return some angles
  | .quit => return none
  | .angles unit => do
    Program.print ("mode: " ++ unit.name)
    return some unit
  | .showHistory => do
    session.showHistory
    return some angles
  | .unknown instruction => do
    Program.complain ("error: unknown command " ++ Text.quoted instruction)
    return some angles
  | .expression text => do
    session.evaluateLine angles text
    return some angles

/-- Does what the lines ask for, one after the other, until one of them ends the session. -/
def run (session : Session) (angles : AngleUnit) : List Text → Program Unit
  | [] => session.prompt
  | line :: lines => do
    session.prompt
    match ← session.step angles (.ofText line) with
    | some angles => session.run angles lines
    | none => return

end Session

/-- What is printed before each line of a session. -/
def promptText : Text := "> "

/-- The lines that are typed, each of which ends with a line feed or with the end of what is
typed. -/
def typedLines (input : Text) : List Text :=
  let lines := input.splitAt '\n'
  if lines.getLast? = some [] then lines.dropLast else lines

end Reckoner.Command
