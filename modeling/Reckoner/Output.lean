import Reckoner.Program

/-! What can be read of the events of a program: its output, its error output, and its log. -/

namespace Reckoner

namespace Event

/-- The name of a level in a log. -/
def levelName : Level → Text
  | .debug => "DEBUG"
  | .warning => "WARNING"

/-- A log record with its level and its source. -/
def recordText (level : Level) (source message : Text) : Text :=
  levelName level ++ " " ++ source ++ ": " ++ message

/-- What events print. -/
def output (events : List Event) : LooseText :=
  events.flatMap fun
    | printed text => text
    | _ => []

/-- What events show where errors are printed.  Log records are shown in full after a request for
that; before, only warnings are, by their message alone. -/
def errorOutput (inFull : Bool) : List Event → Text
  | [] => []
  | verbose :: events => errorOutput true events
  | complained text :: events => text ++ errorOutput inFull events
  | logged level source message :: events =>
    (if inFull then recordText level source message ++ ['\n']
      else if level = .warning then message ++ ['\n']
      else []) ++ errorOutput inFull events
  | _ :: events => errorOutput inFull events

/-- The log records among events. -/
def records (events : List Event) : List Text :=
  events.filterMap fun
    | logged level source message => some (recordText level source message)
    | _ => none

end Event

end Reckoner
