import Reckoner.Command.Options
import Reckoner.Settings.Basic
import Reckoner.Text.Integer

/-! The commands of the program and their arguments. -/

namespace Reckoner.Command

/-- Arguments of every command that uses settings: the folder and the file of the settings, and
whether the log is shown in full. -/
structure CommonArguments where
  root : Option Text := none
  file : Option Text := none
  verbose : Bool := false
  deriving DecidableEq, Repr

/-- Arguments of an evaluation: the unit of angles if it is not that of the settings, whether JSON
is printed, whether the postfix form is shown, and whether the result is kept out of the journal. -/
structure EvalArguments where
  common : CommonArguments := {}
  angles : Option AngleUnit := none
  json : Bool := false
  showsPostfix : Bool := false
  unrecorded : Bool := false
  words : List Text := []
  deriving DecidableEq, Repr

/-- Arguments of an evaluation of a spoken request. -/
structure AskArguments where
  common : CommonArguments := {}
  angles : Option AngleUnit := none
  json : Bool := false
  unrecorded : Bool := false
  words : List Text := []
  deriving DecidableEq, Repr

/-- Arguments of the command that translates a request. -/
structure TranslateArguments where
  common : CommonArguments := {}
  json : Bool := false
  words : List Text := []
  deriving DecidableEq, Repr

/-- How many entries are shown at most. -/
inductive EntryLimit
  | unlimited
  | atMost (count : Int)
  /-- A limit is asked for, but none is given. -/
  | blank
  deriving DecidableEq, Repr

/-- Arguments of the command for the journal: how many entries are shown at most, whether all are
removed, and where they are copied to. -/
structure HistoryArguments where
  common : CommonArguments := {}
  json : Bool := false
  limit : EntryLimit := .unlimited
  clear : Bool := false
  destination : Option Text := none
  deriving DecidableEq, Repr

/-- Arguments of a session. -/
structure SessionArguments where
  common : CommonArguments := {}
  angles : Option AngleUnit := none
  unrecorded : Bool := false
  deriving DecidableEq, Repr

/-- A command with its arguments. -/
inductive Arguments
  | eval (arguments : EvalArguments)
  | ask (arguments : AskArguments)
  | translate (arguments : TranslateArguments)
  | history (arguments : HistoryArguments)
  | session (arguments : SessionArguments)
  /-- Serves tools in a folder. -/
  | serve (folder : Option Text)
  deriving DecidableEq, Repr

variable {σ : Type}

/-! ### Options -/

/-- A flag that has no letter. -/
def flag (name : Text) (set : σ → σ) : OptionForm σ := .flag none name fun s => .ok (set s)

/-- The option for help. -/
def helpOption : OptionForm σ := .flag (some 'h') "--help" fun _ => .error .help

/-- The options of every command that uses settings. -/
def commonOptions (change : (CommonArguments → CommonArguments) → σ → σ) : List (OptionForm σ) :=
  [helpOption,
    .value "--root" fun text s => .ok (change ({ · with root := text }) s),
    .value "--config" fun text s => .ok (change ({ · with file := text }) s),
    .flag (some 'v') "--verbose" fun s => .ok (change ({ · with verbose := true }) s)]

/-- The fault of two units of angles. -/
def twoUnits (given : AngleUnit) : Stop :=
  .misuse ("not allowed with argument --" ++ given.name)

/-- The option for a unit of angles, which excludes the other one. -/
def angleOption (get : σ → Option AngleUnit) (set : AngleUnit → σ → σ) (unit : AngleUnit) :
    OptionForm σ :=
  .flag none ("--" ++ unit.name) fun s =>
    match get s with
    | none => .ok (set unit s)
    | some given => if given = unit then .ok s else .error (twoUnits given)

/-- The options for the units of angles. -/
def angleOptions (get : σ → Option AngleUnit) (set : AngleUnit → σ → σ) : List (OptionForm σ) :=
  AngleUnit.all.map (angleOption get set)

/-! ### Grammars -/

/-- The words of an evaluation. -/
def evalGrammar : Grammar EvalArguments where
  options :=
    commonOptions (fun change s => { s with common := change s.common }) ++
    angleOptions (·.angles) (fun unit s => { s with angles := some unit }) ++
    [flag "--json" ({ · with json := true }),
      flag "--rpn" ({ · with showsPostfix := true }),
      flag "--no-history" ({ · with unrecorded := true })]
  operands := .words fun words s => { s with words }

/-- The words of an evaluation of a spoken request. -/
def askGrammar : Grammar AskArguments where
  options :=
    commonOptions (fun change s => { s with common := change s.common }) ++
    angleOptions (·.angles) (fun unit s => { s with angles := some unit }) ++
    [flag "--json" ({ · with json := true }),
      flag "--no-history" ({ · with unrecorded := true })]
  operands := .words fun words s => { s with words }

/-- The words of the command that translates a request. -/
def translateGrammar : Grammar TranslateArguments where
  options :=
    commonOptions (fun change s => { s with common := change s.common }) ++
    [flag "--json" ({ · with json := true })]
  operands := .words fun words s => { s with words }

/-- The fault of a limit that is no integer. -/
def badLimit (given : Text) : Stop :=
  .misuse ("argument --limit: invalid int value: " ++ Text.quoted given)

/-- The limit that the value of its option stands for. -/
def readLimit : Option Text → Except Stop EntryLimit
  | none => .ok .blank
  | some text =>
    match text.toInteger? with
    | some count => .ok (.atMost count)
    | none => .error (badLimit text)

/-- The words of the command for the journal. -/
def historyGrammar : Grammar HistoryArguments where
  options :=
    commonOptions (fun change s => { s with common := change s.common }) ++
    [flag "--json" ({ · with json := true }),
      .value "--limit" fun text s => (readLimit text).map fun limit => { s with limit },
      flag "--clear" ({ · with clear := true }),
      .value "--export" fun text s => .ok { s with destination := text }]
  operands := .absent

/-- The words of a session. -/
def sessionGrammar : Grammar SessionArguments where
  options :=
    commonOptions (fun change s => { s with common := change s.common }) ++
    angleOptions (·.angles) (fun unit s => { s with angles := some unit }) ++
    [flag "--no-history" ({ · with unrecorded := true })]
  operands := .absent

/-- The words of the server of tools. -/
def serveGrammar : Grammar (Option Text) where
  options := [helpOption, .value "--root" fun text _ => .ok text]
  operands := .absent

/-- The fault of a command that does not exist. -/
def unknownCommand (name : Text) : Stop := .misuse ("invalid choice: " ++ Text.quoted name)

/-- The words after the name of the server. -/
def serverGrammar : Grammar (Option Arguments) where
  options := [helpOption]
  operands := .command fun name words _ =>
    if name = "serve".toList then (serveGrammar.read none words).map fun s => some (.serve s)
    else .error (unknownCommand name)

/-- All words of a command line. -/
def mainGrammar : Grammar (Option Arguments) where
  options := [helpOption, .flag none "--version" fun _ => .error .version]
  operands := .command fun name words given =>
    match String.ofList name with
    | "eval" => (evalGrammar.read {} words).map (some <| .eval ·)
    | "ask" => (askGrammar.read {} words).map (some <| .ask ·)
    | "translate" => (translateGrammar.read {} words).map (some <| .translate ·)
    | "history" => (historyGrammar.read {} words).map (some <| .history ·)
    | "repl" => (sessionGrammar.read {} words).map (some <| .session ·)
    | "mcp" => serverGrammar.read given words
    | _ => .error (unknownCommand name)

/-- The command that the words of a command line stand for. -/
def Arguments.read (words : List Text) : Except Stop Arguments :=
  (mainGrammar.read none words).bind fun
    | some arguments => .ok arguments
    | none => .error (.misuse "no command")

/-- How the program is used. -/
def usage : Text :=
  "usage: rpncalc [-h] [--version] eval|ask|translate|history|repl|mcp ...\n"

end Reckoner.Command
