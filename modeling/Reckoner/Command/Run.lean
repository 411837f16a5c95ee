import Reckoner.Command.Arguments
import Reckoner.Command.Session
import Reckoner.Toolbox.Server

/-! The commands of the program. -/

namespace Reckoner.Command

open Json (Value)

/-- The words of a request as they were given, with spaces between them. -/
def joinedWords (words : List Text) : Text := Text.joined " " words

/-- The settings that the arguments of a command point to.  An empty path points nowhere. -/
def CommonArguments.settings (common : CommonArguments) : Program Settings := do
  let resolve (path : Option Text) : Program (Option Path) :=
    match path with
    | none | some [] => return none
    | some path => return some (← Program.resolve (.ofText path))
  let root ← resolve common.root
  let file ← resolve common.file
  SettingsSource.load { root, file }

/-- The settings for a command, or else its report of the failure. -/
def withSettings (common : CommonArguments) (command : Text) (json : Bool)
    (next : Settings → Program Nat) : Program Nat :=
  orElse [.config] common.settings (report command json) next

/-! ### Evaluation -/

/-- The object for the result of an evaluation, with the postfix form if that is shown. -/
def evalJson (expression result : Text) (value : Double) (angles : AngleUnit)
    (form : Option Text) : List (LooseText × Value) :=
  let always : List (LooseText × Value) :=
    [("command", .text "eval"), ("ok", .boolean true), ("expression", .text expression),
      ("result", .text result), ("value", .real value),
      ("degree_mode", .boolean angles.isDegrees)]
  match form with
  | some form => always.concat ("rpn", .text form)
  | none => always

/-- The postfix form of an expression if it is shown, and the value. -/
def formAndValue (showsPostfix : Bool) (angles : AngleUnit) (expression : Text) :
    Program (Option Text × Double) := do
  if showsPostfix then
    let form ← ofExpression (explain expression)
    return (some (tokensText form), ← evaluated angles expression)
  else return (none, ← evaluated angles expression)

/-- Prints the result of an evaluation, after the postfix form if that is shown. -/
def printResult (form : Option Text) (result : Text) : Program Unit := do
  match form with
  | some form => Program.print ("rpn: " ++ form)
  | none => pure ()
  Program.print result

/-- Evaluates an expression. -/
def eval (arguments : EvalArguments) : Program Nat :=
  withSettings arguments.common "eval" arguments.json fun settings => do
    let expression := joinedWords arguments.words
    let angles := arguments.angles.getD settings.angles
    orElse evaluationStages (formAndValue arguments.showsPostfix angles expression)
      (report "eval" arguments.json)
      fun (form, value) => do
        record settings arguments.unrecorded expression (shown value)
        if arguments.json then
          printJson (evalJson expression (shown value) value angles form)
        else printResult form (shown value)
        return success

/-! ### Requests -/

/-- The record of the loop in which a command waits for the answers of a service. -/
def logWaiting : Program Unit :=
  Program.log .debug "asyncio" "Using selector: EpollSelector"

/-- The settings and the candidate for a request. -/
def translated (common : CommonArguments) (request : Text) : Program (Settings × Candidate) := do
  let settings ← common.settings
  let translator ← settings.translator.translator
  logWaiting
  return (settings, ← translator.translate request)

/-- The stages whose failures are reported where a request is translated. -/
def translatorStages : List Stage := [.config, .translator]

/-- Warns about what is wrong with a candidate. -/
def warnAll : List Text → Program Unit
  | [] => return
  | error :: errors => do
    warn error
    warnAll errors

/-- The object for the candidate for a request. -/
def translateJson (request : Text) (candidate : Candidate) : List (LooseText × Value) :=
  [("command", .text "translate"), ("ok", .boolean candidate.errors.isEmpty),
    ("text", .text request), ("expression", .text candidate.expression),
    ("attempts", .integer candidate.attempts),
    ("errors", .array (candidate.errors.map fun error => .text error.loose))]

/-- Translates a request. -/
def translate (arguments : TranslateArguments) : Program Nat := do
  let request := joinedWords arguments.words
  orElse translatorStages (translated arguments.common request)
    (report "translate" arguments.json)
    fun (_, candidate) => do
      if arguments.json then printJson (translateJson request candidate)
      else
        Program.print candidate.expression
        warnAll candidate.errors
      return if candidate.errors.isEmpty then success else Stage.translator.exitCode

/-- The object for the result of a spoken request, with a notice if it was about an equation. -/
def askJson (request result : Text) (value : Double) (angles : AngleUnit)
    (candidate : Candidate) : List (LooseText × Value) :=
  let always : List (LooseText × Value) :=
    [("command", .text "ask"), ("ok", .boolean true), ("text", .text request),
      ("expression", .text candidate.expression), ("result", .text result),
      ("value", .real value), ("degree_mode", .boolean angles.isDegrees),
      ("attempts", .integer candidate.attempts)]
  if asksEquation request then always.concat ("notice", .text equationNotice) else always

/-- Translates a request and evaluates the expression. -/
def ask (arguments : AskArguments) : Program Nat := do
  let request := joinedWords arguments.words
  orElse translatorStages (translated arguments.common request) (report "ask" arguments.json)
    fun (settings, candidate) => do
      if asksEquation request && !arguments.json then
        Program.complain ("note: " ++ equationNotice)
      let expression := candidate.expression
      let angles := arguments.angles.getD settings.angles
      let failed (failure : Failure) : Program Nat := do
        if !arguments.json then Program.complain ("expression: " ++ expression)
        report "ask" arguments.json failure
      orElse evaluationStages (evaluated angles expression) failed fun value => do
        record settings arguments.unrecorded expression (shown value)
        if arguments.json then
          printJson (askJson request (shown value) value angles candidate)
        else Program.print (expression ++ " = " ++ shown value)
        return success

/-! ### History -/

/-- The object for the command for the journal. -/
def historyJson (members : List (LooseText × Value)) : List (LooseText × Value) :=
  ("command", .text "history") :: ("ok", .boolean true) :: members

/-- Copies the entries of a journal to a file. -/
def exportHistory (journal : Journal) (destination : Path) (json : Bool) : Program Unit := do
  journal.copyTo destination
  if json then printJson (historyJson [("exported", .text destination.text)])
  else
    Program.print ("exported " ++ Text.ofNat journal.entries.length ++ " entries to " ++
      destination.text)

/-- Removes or copies the entries of the journal as far as that is asked for; otherwise the journal
is to be shown. -/
def changeHistory (arguments : HistoryArguments) : Program (Option Journal) := do
  let journal ← openJournal (← arguments.common.settings)
  if arguments.clear then
    let _ ← journal.clear
    if arguments.json then printJson (historyJson [("cleared", .boolean true)])
    return none
  else
    match arguments.destination with
    | none | some [] => return some journal
    | some destination =>
      exportHistory journal (.ofText destination) arguments.json
      return none

/-- The entries that are shown where there is a limit to them. -/
def limited (limit : EntryLimit) (entries : List Entry) : Program (List Entry) :=
  match limit with
  | .unlimited => return entries
  | .atMost count => return entries.take count.toNat
  | .blank => .raise (.crash .blankLimit)

/-- Shows the journal, removes its entries, or copies them. -/
def history (arguments : HistoryArguments) : Program Nat :=
  orElse [.config, .history] (changeHistory arguments) (report "history" arguments.json) fun
    | none => return success
    | some journal => do
      let entries ← limited arguments.limit journal.entries
      if arguments.json then
        printJson (historyJson [("entries", .array (entries.map Entry.json))])
      else printEntries entries
      return success

/-! ### Sessions and tools -/

/-- The session that the settings describe. -/
def sessionFor (settings : Settings) (unrecorded : Bool) : Session where
  keep := record settings unrecorded
  showHistory := do printEntries (← openJournal settings).entries
  prompt := Program.emit (.printed promptText)

/-- The session for the arguments, and the unit of angles in which it starts. -/
def openSession (arguments : SessionArguments) : Program (Session × AngleUnit) := do
  let settings ← arguments.common.settings
  return (sessionFor settings arguments.unrecorded, arguments.angles.getD settings.angles)

/-- Evaluates what is typed. -/
def session (arguments : SessionArguments) : Program Nat :=
  orElse [.config] (openSession arguments) (report "repl" false) fun (session, angles) => do
    session.run angles (typedLines (← Program.input))
    return success

/-- What is said where there is no server of tools. -/
def noServer : Text :=
  "error: fastmcp is required for `rpncalc mcp`. Install it with: pip install fastmcp"

/-- Serves tools in a folder. -/
def serve (folder : Option Text) : Program Nat := do
  match folder with
  | none | some [] => pure ()
  | some folder => Program.enter (← Program.resolve (.ofText folder))
  match ← (ToolServer.create).attempt with
  | .ok server =>
    Program.serve server.tools
    return success
  | .error (.crash (.missingPackage _)) =>
    Program.complain noServer
    return misuseCode
  | .error fault => .raise fault

/-! ### All commands -/

/-- Whether the log is shown in full. -/
def Arguments.verbose : Arguments → Bool
  | .eval arguments => arguments.common.verbose
  | .ask arguments => arguments.common.verbose
  | .translate arguments => arguments.common.verbose
  | .history arguments => arguments.common.verbose
  | .session arguments => arguments.common.verbose
  | .serve _ => false

/-- Does what the arguments say, and gives the exit code. -/
def Arguments.run (arguments : Arguments) : Program Nat := do
  if arguments.verbose then Program.showLog
  match arguments with
  | .eval arguments => Command.eval arguments
  | .ask arguments => Command.ask arguments
  | .translate arguments => Command.translate arguments
  | .history arguments => Command.history arguments
  | .session arguments => Command.session arguments
  | .serve folder => Command.serve folder

/-- The version of the program. -/
def versionText : Text := "rpncalc 0.1.0"

/-- What is shown where the reading of a command line stops, and the exit code. -/
def Stop.run : Stop → Program Nat
  | .help => do
    Program.emit (.printed usage)
    return success
  | .version => do
    Program.print versionText
    return success
  | .misuse reason => do
    Program.emit (.complained (usage ++ "rpncalc: error: " ++ reason ++ "\n"))
    return misuseCode

/-- Does what a command line says, and gives the exit code. -/
def execute (words : List Text) : Program Nat :=
  match Arguments.read words with
  | .ok arguments => arguments.run
  | .error stop => stop.run

end Reckoner.Command
