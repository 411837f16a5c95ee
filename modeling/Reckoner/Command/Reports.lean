import Reckoner.Json.Writer
import Reckoner.Program

/-! What a command prints at its end, and its exit code. -/

namespace Reckoner.Command

/-- The exit code of a command that has done its work. -/
def success : Nat := 0

/-- The exit code of a command whose words make no sense. -/
def misuseCode : Nat := 2

end Reckoner.Command

namespace Reckoner

/-- The exit code of a command that ends with a failure of this stage. -/
def Stage.exitCode : Stage → Nat
  | .lex | .parse | .eval => 1
  | .config | .history => 2
  | .translator => 3
  | .other _ => 1

end Reckoner

namespace Reckoner.Command

open Json (Value)

/-- Prints an object on one line. -/
def printJson (members : List (LooseText × Value)) : Program Unit :=
  Program.print ((Value.object members).write .compact)

/-- The object that reports a failure of a command. -/
def failureJson (command : Text) (failure : Failure) : List (LooseText × Value) :=
  [("command", .text command), ("ok", .boolean false), ("error", .text failure.words),
    ("kind", .text failure.stage.kind)]

/-- Reports a failure of a command, as JSON if that is asked for, and gives its exit code. -/
def report (command : Text) (json : Bool) (failure : Failure) : Program Nat := do
  if json then printJson (failureJson command failure) else Program.complain failure.report
  return failure.stage.exitCode

/-- Goes on with what `program` gives.  A failure of one of these stages is met with `otherwise`
instead; anything else that ends `program` ends this program too. -/
def orElse {α β : Type} (stages : List Stage) (program : Program α)
    (otherwise : Failure → Program β) (next : α → Program β) : Program β := do
  match ← program.attempt with
  | .ok value => next value
  | .error (.failure failure) =>
    if stages.elem failure.stage then otherwise failure else Program.fail failure
  | .error fault => .raise fault

/-- A warning about something that does not keep a command from doing its work. -/
def warn (text : Text) : Program Unit := Program.complain ("warn: " ++ text)

end Reckoner.Command
