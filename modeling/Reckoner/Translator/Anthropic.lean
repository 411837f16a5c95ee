import Reckoner.Answer
import Reckoner.Number.Layout
import Reckoner.Translator.Backoff
import Reckoner.Translator.Basic
import Reckoner.Translator.Prompt

/-! The translator by Anthropic.  It needs a key, the package of the service, without which there is a
notice, and the instructions, which stand beside the conversation. -/

namespace Reckoner.Anthropic

/-- The source of the log records. -/
def logSource : Text := "rpncalc.nl.anthropic"

/-- How long an answer may be. -/
def maxTokens : Nat := 256

/-- The failure for an answer without text. -/
def emptyContent : Failure := .translator "Anthropic returned empty content."

/-- The answer in a response: the text of the first block, if there is one and it has a text. -/
def Response.answer (response : Response) : Except Fault Text :=
  match response.content with
  | some text :: _ => .ok text
  | [] | none :: _ => .error (.failure emptyContent)

/-- What comes of a call: the answer, or the fault with which it ends. -/
def once (call : Call) : Program (Except Fault Text) := do
  return (← Program.call (.anthropic call)).bind Response.answer

/-- The log record of a failed call that will be made again after this delay. -/
def warning (backoff : Backoff) (number : Nat) (delay : Double) (fault : Fault) : Text :=
  "Anthropic API error (attempt " ++ Text.ofNat (number + 1) ++ "/" ++
    Text.ofNat (backoff.retries + 1) ++ "), retrying in " ++ delay.fixedText 1 ++ "s: " ++
    fault.message

/-- The answer to a call that has failed `failed` times and may do so `left` times more. -/
def askFrom (backoff : Backoff) (call : Call) (failed : Nat) : (left : Nat) → Program Text
  | 0 => do Program.ended (← once call)
  | left + 1 => do
    match ← once call with
    | .ok answer => return answer
    | .error fault =>
      if fault.isTransient then
        let delay ← Program.ended (backoff.delay failed)
        Program.log .warning logSource (warning backoff failed delay fault)
        Program.emit (.slept delay)
        askFrom backoff call (failed + 1) left
      else .raise fault

/-- The answer to a call. -/
def ask (backoff : Backoff) (call : Call) : Program Text :=
  askFrom backoff call 0 backoff.retries

/-- What the user says: the request, and after a blank line the notes, one a line. -/
def userText (request : Text) (notes : Option (List Text)) : Text :=
  "Request: " ++ Text.stripped request ++
    match notes with
    | none | some [] => []
    | some notes => "\n\n" ++ Text.joined "\n" (notes.map fun note => "- " ++ note)

/-- The translator, with these instructions. -/
def translator (model instructions : Text) : Translator where
  deterministic := false
  answer request notes := do
    let answer ← ask .standard
      { model, maxTokens, system := Text.stripped instructions ++ "\n"
        messages := [⟨.user, userText request notes⟩] }
    Program.ofExcept (answerExpression answer)

/-- The failure for a key that is not set. -/
def missingKey (variableName : Text) : Failure :=
  .config ("Missing API key: " ++ variableName ++
    ". Set it in the environment before using nl.provider = 'anthropic'.")

/-- The failure without the package of the service. -/
def missingPackage : Failure :=
  .config ("The 'anthropic' package is required for nl.provider = 'anthropic'. " ++
    "Install it with: pip install anthropic".toList)

/-- Makes sure that the package of the service is installed. -/
def requirePackage : Program Unit := do
  unless ← Program.hasPackage "anthropic" do Program.fail missingPackage

/-- The failure for instructions that cannot be read. -/
def unreadablePrompt (path : Text) : Failure :=
  .config ("Failed reading nl.system_prompt: " ++ path)

/-- The translator, made ready for use. -/
def connect (settings : TranslatorSettings) : Program Translator := do
  let key := Text.stripped ((← Program.environment settings.keyVariable).getD [])
  if key.isEmpty then Program.fail (missingKey settings.keyVariable)
  requirePackage
  Program.emit (.connected key)
  match ← promptAt settings.promptPath with
  | .ok instructions => return translator settings.model instructions
  | .error _ => Program.fail (unreadablePrompt settings.promptPath)

end Reckoner.Anthropic
