import Reckoner.Translator.Selection
import Reckoner.World

/-! The services in one form.  Each service has a translator of its own, with its own loop of calls.
Both are one translator, which is told how the service is called and what is said of it. -/

namespace Reckoner

/-! ### Calls -/

/-- The name in messages. -/
def Service.title : Service → Text
  | openai => "OpenAI"
  | anthropic => "Anthropic"

/-- The service that is called. -/
def Call.service : Call → Service
  | openAi _ => .openai
  | anthropic _ => .anthropic

/-- How a call is made: what comes of it, and the source and the words of the log records of calls
that failed. -/
structure Calling where
  once : Program (Except Fault Text)
  logSource : Text
  warning : Backoff → Nat → Double → Fault → Text

/-- The answer to a call that has failed `failed` times and may do so `left` times more. -/
def Calling.askFrom (calling : Calling) (backoff : Backoff) (failed : Nat) :
    (left : Nat) → Program Text
  | 0 => do Program.ended (← calling.once)
  | left + 1 => do
    match ← calling.once with
    | .ok answer => return answer
    | .error fault =>
      if fault.isTransient then
        let delay ← Program.ended (backoff.delay failed)
        Program.log .warning calling.logSource (calling.warning backoff failed delay fault)
        Program.emit (.slept delay)
        calling.askFrom backoff (failed + 1) left
      else .raise fault

namespace Call

/-- How a call is made, by the service that is called. -/
def calling : Call → Calling
  | openAi call => ⟨OpenAi.once call, OpenAi.logSource, OpenAi.warning⟩
  | anthropic call => ⟨Anthropic.once call, Anthropic.logSource, Anthropic.warning⟩

/-- The answer to a call, from the service that is called. -/
def ask (backoff : Backoff) : Call → Program Text
  | openAi call => OpenAi.ask backoff call
  | anthropic call => Anthropic.ask backoff call

end Call

theorem OpenAi.askFrom_eq (backoff : Backoff) (call : OpenAi.Call) (failed left : Nat) :
    OpenAi.askFrom backoff call failed left =
      (Call.openAi call).calling.askFrom backoff failed left := by
  induction left generalizing failed with
  | zero => rfl
  | succ left ih =>
    simp only [OpenAi.askFrom, Calling.askFrom, ih]
    rfl

theorem Anthropic.askFrom_eq (backoff : Backoff) (call : Anthropic.Call) (failed left : Nat) :
    Anthropic.askFrom backoff call failed left =
      (Call.anthropic call).calling.askFrom backoff failed left := by
  induction left generalizing failed with
  | zero => rfl
  | succ left ih =>
    simp only [Anthropic.askFrom, Calling.askFrom, ih]
    rfl

theorem Call.ask_eq (backoff : Backoff) (call : Call) :
    call.ask backoff = call.calling.askFrom backoff 0 backoff.retries := by
  cases call with
  | openAi call => exact OpenAi.askFrom_eq backoff call 0 backoff.retries
  | anthropic call => exact Anthropic.askFrom_eq backoff call 0 backoff.retries

/-! ### Outcomes -/

/-- The script after this many calls. -/
def Script.drop {Response : Type} (script : Script Response) (count : Nat) : Script Response :=
  { script with outcomes := script.outcomes.drop count }

theorem Script.drop_drop {Response : Type} (script : Script Response) (m n : Nat) :
    (script.drop m).drop n = script.drop (m + n) := by
  simp only [drop, List.drop_drop]

theorem Script.next_eq {Response : Type} (script : Script Response) :
    script.next = (script.outcomes.headD script.last, script.drop 1) := by
  obtain ⟨outcomes, last⟩ := script
  cases outcomes <;> rfl

/-- The scripts after this many calls of a service. -/
def Scripts.drop (scripts : Scripts) (count : Nat) : Service → Scripts
  | .openai => { scripts with openAi := scripts.openAi.drop count }
  | .anthropic => { scripts with anthropic := scripts.anthropic.drop count }

theorem Scripts.drop_drop (scripts : Scripts) (m n : Nat) (service : Service) :
    (scripts.drop m service).drop n service = scripts.drop (m + n) service := by
  cases service <;> simp only [Scripts.drop, Script.drop_drop]

/-- The world after this many calls of a service, and after these events have been shown. -/
def World.answered (world : World) (service : Service) (count : Nat) (events : List Event) : World :=
  { world with
    scripts := world.scripts.drop count service
    events := world.events ++ events }

theorem World.answered_answered (world : World) (service : Service) (m n : Nat)
    (events more : List Event) : (world.answered service m events).answered service n more =
      world.answered service (m + n) (events ++ more) := by
  simp only [World.answered, Scripts.drop_drop, List.append_assoc]

theorem World.answered_zero (world : World) (service : Service) :
    world.answered service 0 [] = world := by
  cases service <;> simp only [World.answered, Scripts.drop, Script.drop, List.drop_zero,
    List.append_nil]

theorem Scripts.answer_openAi (scripts : Scripts) (call : OpenAi.Call) :
    scripts.answer (.openAi call) =
      (scripts.openAi.outcomes.headD scripts.openAi.last, scripts.drop 1 .openai) := by
  rw [answer, Script.next_eq]
  rfl

theorem Scripts.answer_anthropic (scripts : Scripts) (call : Anthropic.Call) :
    scripts.answer (.anthropic call) =
      (scripts.anthropic.outcomes.headD scripts.anthropic.last, scripts.drop 1 .anthropic) := by
  rw [answer, Script.next_eq]
  rfl

theorem World.reply_call (world : World) (call : Call) : world.reply (.call call) =
    ((world.scripts.answer call).1, world.answered call.service 1 [.called call]) := by
  cases call with
  | openAi call => rw [reply, Scripts.answer_openAi]; rfl
  | anthropic call => rw [reply, Scripts.answer_anthropic]; rfl

theorem World.reply_hasPackage {world : World} {name : Text} (h : name ∉ world.missingPackages) :
    world.reply (.hasPackage name) = (true, world) := by
  have hthere : (!world.missingPackages.elem name) = true := by simp [h]
  exact congrArg (·, world) hthere

/-- What is particular to the translator by a service: its package, what it fails with, and the call
for a request, with instructions and notes. -/
structure Backend where
  package : Text
  missingKey : (variableName : Text) → Failure
  missingPackage : Fault
  unreadablePrompt : (path : Text) → Failure
  call : (model instructions request : Text) → (notes : Option (List Text)) → Call

namespace Backend

/-- The translator by a service, with these instructions. -/
def translator (backend : Backend) (model instructions : Text) : Translator where
  deterministic := false
  answer request notes := do
    let answer ← (backend.call model instructions request notes).ask .standard
    Program.ofExcept (answerExpression answer)

/-- Makes sure that the package of a service is installed. -/
def requirePackage (backend : Backend) : Program Unit := do
  unless ← Program.hasPackage backend.package do .raise backend.missingPackage

/-- The translator by a service, made ready for use. -/
def connect (backend : Backend) (settings : TranslatorSettings) : Program Translator := do
  let key := Text.stripped ((← Program.environment settings.keyVariable).getD [])
  if key.isEmpty then Program.fail (backend.missingKey settings.keyVariable)
  backend.requirePackage
  Program.emit (.connected key)
  match ← promptAt settings.promptPath with
  | .ok instructions => return backend.translator settings.model instructions
  | .error _ => Program.fail (backend.unreadablePrompt settings.promptPath)

end Backend

/-- What is particular to a service. -/
def Service.backend : Service → Backend
  | openai =>
    { package := "openai", missingKey := OpenAi.missingKey
      missingPackage := .crash (.missingPackage "openai")
      unreadablePrompt := OpenAi.unreadablePrompt
      call := fun model instructions request notes =>
        .openAi ⟨model, OpenAi.conversation instructions request notes⟩ }
  | anthropic =>
    { package := "anthropic", missingKey := Anthropic.missingKey
      missingPackage := .failure Anthropic.missingPackage
      unreadablePrompt := Anthropic.unreadablePrompt
      call := fun model instructions request notes =>
        .anthropic
          { model, maxTokens := Anthropic.maxTokens, system := Text.stripped instructions ++ "\n"
            messages := [⟨.user, Anthropic.userText request notes⟩] } }

theorem OpenAi.connect_eq (settings : TranslatorSettings) :
    OpenAi.connect settings = Service.openai.backend.connect settings := by
  rw [OpenAi.connect, Backend.connect]
  rfl

theorem Anthropic.connect_eq (settings : TranslatorSettings) :
    Anthropic.connect settings = Service.anthropic.backend.connect settings := by
  rw [Anthropic.connect, Backend.connect]
  rfl

theorem TranslatorSettings.translator_of_rules {settings : TranslatorSettings}
    (h : settings.provider = .rules) : settings.translator = pure .rules := by
  rw [translator, h]

theorem TranslatorSettings.translator_of_service {settings : TranslatorSettings} {service : Service}
    (h : settings.provider = .service service) :
    settings.translator = service.backend.connect settings := by
  rw [translator, h]
  cases service with
  | openai => exact OpenAi.connect_eq settings
  | anthropic => exact Anthropic.connect_eq settings

end Reckoner
