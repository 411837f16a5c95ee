import Reckoner.Command.Run
import Reckoner.Json.Reader

/-! Calls of the tools.  A tool runs a command and answers with the JSON that the command prints.
Texts stand after the end mark of the command line, so that they are never taken for options. -/

namespace Reckoner

open Json (Value)

/-- A call of a tool, with the folder of the settings if it is not looked for. -/
inductive ToolCall
  | evaluate (expression : Text) (angles : AngleUnit) (root : Option Text)
  | translate (request : Text) (root : Option Text)
  | ask (request : Text) (angles : AngleUnit) (root : Option Text)
  | history (limit : Option Int) (root : Option Text)
  deriving DecidableEq, Repr

namespace ToolCall

/-- The words for the folder of the settings. -/
def rootWords : Option Text → List Text
  | none | some [] => []
  | some root => ["--root", root]

/-- The words for a limit to the entries that are shown. -/
def limitWords : Option Int → List Text
  | none => []
  | some limit => ["--limit", Text.ofInt limit]

/-- The word for a unit of angles. -/
def angleWord (angles : AngleUnit) : Text := "--" ++ angles.name

/-- The words of the command that a call runs. -/
def words : ToolCall → List Text
  | evaluate expression angles root =>
    "eval" :: "--json" :: "--no-history" :: "--rpn" ::
      (rootWords root ++ [angleWord angles, Command.endMark, expression])
  | translate request root =>
    "translate" :: "--json" :: (rootWords root ++ [Command.endMark, request])
  | ask request angles root =>
    "ask" :: "--json" :: "--no-history" ::
      (rootWords root ++ [angleWord angles, Command.endMark, request])
  | history limit root => "history" :: "--json" :: (rootWords root ++ limitWords limit)

end ToolCall

/-- The object that stands for the output of a command that prints no JSON. -/
def brokenOutput (command : Text) (error : LooseText) : Text :=
  (Value.object [("command", .text command), ("ok", .boolean false), ("error", .text error)]).write
    .compact

/-- How much of an output is shown that is no JSON. -/
def shownOutput : Nat := 500

/-- The JSON that a command prints, or an object that says why there is none. -/
def commandJson (words : List Text) : Program LooseText := do
  let command := words.head?.getD "unknown"
  let (_, output) ← (Command.execute words).capture []
  let output := output.stripped
  if output.isEmpty then return brokenOutput command "command produced no output"
  match Value.read output.shown with
  | .ok _ => return output
  | .error .tooDeep => .raise (.crash .tooDeep)
  | .error _ => return brokenOutput command (output.take shownOutput)

/-- The answer to a call of a tool. -/
def ToolCall.answer (call : ToolCall) : Program LooseText := commandJson call.words

end Reckoner
