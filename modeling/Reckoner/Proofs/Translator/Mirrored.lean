import Mathlib.Data.List.Forall2
import Reckoner.Proofs.Program.Asking
import Reckoner.Proofs.Program.Requests

/-! The services are interchangeable.  The translator by the one service and the translator by the
other, made from the same settings, do the same things in the same order: they ask the world for the
same replies, send the same texts, wait as long, and end alike, as long as what comes of their calls
says the same.  Only the name of the service differs. -/

namespace Reckoner

/-- One text twice, with the name of the one service in it and with that of the other. -/
inductive Renamed : Text → Text → Prop
  | same (text : Text) : Renamed text text
  | name (before after : Text) :
    Renamed (before ++ "openai" ++ after) (before ++ "anthropic" ++ after)
  | title (before after : Text) :
    Renamed (before ++ "OpenAI" ++ after) (before ++ "Anthropic" ++ after)

/-- Faults of the same kind whose words differ at most in the name of the service. -/
inductive Fault.Mirrors : Fault → Fault → Prop
  | same (fault : Fault) : Fault.Mirrors fault fault
  | renamed (failure : Failure) {text text' : Text} (h : Renamed text text') :
    Fault.Mirrors (.failure { failure with text := some text })
      (.failure { failure with text := some text' })

/-- Calls of the two services that send the same texts.  To the one the instructions are the first
message, to the other they are sent beside the messages. -/
inductive Call.Mirrors : Call → Call → Prop
  | texts (model instructions request : Text) (maxTokens : Nat) :
    Call.Mirrors (.openAi ⟨model, [⟨.system, instructions⟩, ⟨.user, request⟩]⟩)
      (.anthropic ⟨model, maxTokens, instructions, [⟨.user, request⟩]⟩)

/-- Events that differ at most in the name of the service and in the form of the calls. -/
inductive Event.Mirrors : Event → Event → Prop
  | connected (key : Text) : Event.Mirrors (.connected key) (.connected key)
  | called {call call' : Call} (h : call.Mirrors call') : Event.Mirrors (.called call) (.called call')
  | slept (seconds : Double) : Event.Mirrors (.slept seconds) (.slept seconds)
  | logged (level : Level) {source source' message message' : Text}
    (hsource : Renamed source source') (hmessage : Renamed message message') :
    Event.Mirrors (.logged level source message) (.logged level source' message')

/-- What comes of calls of the two services and says the same: a text, no text, or an error. -/
inductive SameOutcome : Except Fault OpenAi.Response → Except Fault Anthropic.Response → Prop
  | text (text : Text) (more more' : List (Option Text)) :
    SameOutcome (.ok ⟨some text :: more⟩) (.ok ⟨some text :: more'⟩)
  | noText (more more' : List (Option Text)) :
    SameOutcome (.ok ⟨none :: more⟩) (.ok ⟨none :: more'⟩)
  | noBlock (more : List (Option Text)) : SameOutcome (.ok ⟨none :: more⟩) (.ok ⟨[]⟩)
  | raised (fault : Fault) : SameOutcome (.error fault) (.error fault)

/-- Scripts by which the same comes of the calls of the two services, call by call. -/
structure Scripts.Agree (scripts : Scripts) : Prop where
  outcomes : List.Forall₂ SameOutcome scripts.openAi.outcomes scripts.anthropic.outcomes
  last : SameOutcome scripts.openAi.last scripts.anthropic.last

/-- Two worlds that a world can become, after as many calls of the one service as of the other, and
after events that mirror each other. -/
inductive World.Mirrored (world : World) : World → World → Prop
  | answered (count : ℕ) {events events' : List Event}
    (h : List.Forall₂ Event.Mirrors events events') :
    Mirrored world (world.answered .openai count events) (world.answered .anthropic count events')

namespace Program

variable {α α' β β' : Type}

/-- Ends of programs that differ at most in the name of the service, and in their values by this
relation. -/
inductive Ended (related : α → α' → Prop) : Except Fault α → Except Fault α' → Prop
  | ok {value : α} {value' : α'} (h : related value value') : Ended related (.ok value) (.ok value')
  | error {fault fault' : Fault} (h : fault.Mirrors fault') :
    Ended related (.error fault) (.error fault')

/-- Programs of the same shape, the one with the one service where the other has the other.  That a
package is there is known to both. -/
inductive Mirrors (related : α → α' → Prop) : Program α → Program α' → Prop
  | done {value : α} {value' : α'} (h : related value value') :
    Mirrors related (.done value) (.done value')
  | raise {fault fault' : Fault} (h : fault.Mirrors fault') :
    Mirrors related (.raise fault) (.raise fault')
  | ask {request : Request} {next : request.Reply → Program α} {next' : request.Reply → Program α'}
    (hrequest : request.isReading = true) (h : ∀ reply, Mirrors related (next reply) (next' reply)) :
    Mirrors related (.ask request next) (.ask request next')
  | emit {event event' : Event} {next : Except OutputFault Unit → Program α}
    {next' : Except OutputFault Unit → Program α'} (hevent : event.Mirrors event')
    (h : ∀ reply, Mirrors related (next reply) (next' reply)) :
    Mirrors related (.ask (.emit event) next) (.ask (.emit event') next')
  | call {call : OpenAi.Call} {call' : Anthropic.Call}
    {next : Except Fault OpenAi.Response → Program α}
    {next' : Except Fault Anthropic.Response → Program α'}
    (hcall : (Call.openAi call).Mirrors (.anthropic call'))
    (h : ∀ outcome outcome', SameOutcome outcome outcome' →
      Mirrors related (next outcome) (next' outcome')) :
    Mirrors related (.ask (.call (.openAi call)) next) (.ask (.call (.anthropic call')) next')
  | package {next : Bool → Program α} {next' : Bool → Program α'}
    (h : Mirrors related (next true) (next' true)) :
    Mirrors related (.ask (.hasPackage "openai") next) (.ask (.hasPackage "anthropic") next')

section Mirrors

variable {related : α → α' → Prop} {program : Program α} {program' : Program α'}

theorem Mirrors.bind {related' : β → β' → Prop} {next : α → Program β} {next' : α' → Program β'}
    (h : Mirrors related program program')
    (hnext : ∀ value value', related value value' →
      Mirrors related' (next value) (next' value')) :
    Mirrors related' (program >>= next) (program' >>= next') := by
  change Mirrors related' (program.andThen next) (program'.andThen next')
  induction h with
  | done h => exact hnext _ _ h
  | raise h => exact .raise h
  | ask hrequest _ ih => exact .ask hrequest ih
  | emit hevent _ ih => exact .emit hevent ih
  | call hcall _ ih => exact .call hcall ih
  | package _ ih => exact .package ih

theorem Mirrors.attempt (h : Mirrors related program program') :
    Mirrors (Ended related) program.attempt program'.attempt := by
  induction h with
  | done h => exact .done (.ok h)
  | raise h => exact .done (.error h)
  | ask hrequest _ ih => exact .ask hrequest ih
  | emit hevent _ ih => exact .emit hevent ih
  | call hcall _ ih => exact .call hcall ih
  | package _ ih => exact .package ih

theorem Mirrors.translating (h : Mirrors related program program') :
    Mirrors related program.translating program'.translating := by
  apply h.attempt.bind
  intro result result' hresult
  cases hresult with
  | ok hvalue => exact .done hvalue
  | error hfault =>
    cases hfault with
    | same => exact .raise (.same _)
    | renamed failure htext => exact .raise (.renamed failure htext)

theorem mirrors_ended {result : Except Fault α} {result' : Except Fault α'}
    (h : Ended related result result') :
    Mirrors related (Program.ended result) (Program.ended result') := by
  cases h with
  | ok h => exact .done h
  | error h => exact .raise h

theorem mirrors_emit {event event' : Event} (h : event.Mirrors event') :
    Mirrors (· = ·) (emit event) (emit event') := by
  refine .emit h fun reply => ?_
  cases reply with
  | ok => exact .done rfl
  | error fault => exact .raise (.same _)

/-- What only looks at the world mirrors itself. -/
theorem OnlyReads.mirrors {program : Program α} (h : program.OnlyReads) :
    Mirrors (· = ·) program program := by
  induction program with
  | done value => exact .done rfl
  | raise fault => exact .raise (.same fault)
  | ask request next ih => exact .ask h.1 fun reply => ih reply (h.2 reply)

end Mirrors

end Program

/-! ### Worlds -/

section Worlds

variable {world world₁ world₂ : World}

theorem World.mirrored_self (world : World) : world.Mirrored world world := by
  have h : world.Mirrored _ _ := .answered 0 .nil
  rwa [answered_zero, answered_zero] at h

theorem World.reply_answered {request : Request} (h : request.isReading = true) (service : Service)
    (count : ℕ) (events : List Event) : (world.answered service count events).reply request =
      ((world.reply request).1, world.answered service count events) := by
  cases request with
  | isFile | read | folder | «variable» | hasPackage | accounts => rfl
  | _ => cases h

theorem World.shows_answered (service : Service) (count : ℕ) (events : List Event) (event : Event) :
    (world.answered service count events).shows event =
      world.answered service count (events ++ [event]) := by
  simp only [World.answered, World.shows, List.append_assoc]

theorem Scripts.Agree.answer {scripts : Scripts} (h : scripts.Agree) (count : ℕ)
    (call : OpenAi.Call) (call' : Anthropic.Call) :
    SameOutcome ((scripts.drop count .openai).answer (.openAi call)).1
      ((scripts.drop count .anthropic).answer (.anthropic call')).1 := by
  have hdrop := List.forall₂_drop count h.outcomes
  rw [answer_openAi, answer_anthropic]
  change SameOutcome ((scripts.openAi.outcomes.drop count).headD scripts.openAi.last)
    ((scripts.anthropic.outcomes.drop count).headD scripts.anthropic.last)
  generalize scripts.openAi.outcomes.drop count = outcomes at hdrop ⊢
  generalize scripts.anthropic.outcomes.drop count = outcomes' at hdrop ⊢
  cases hdrop with
  | nil => exact h.last
  | cons houtcome => exact houtcome

end Worlds

namespace Program

variable {α α' : Type} {related : α → α' → Prop} {program : Program α} {program' : Program α'}

/-- What comes of two programs that were run in a world, if they end alike and leave worlds that mirror
each other. -/
structure RunsAlike (world : World) (related : α → α' → Prop) (run : Except Fault α × World)
    (run' : Except Fault α' × World) : Prop where
  ended : Ended related run.1 run'.1
  after : world.Mirrored run.2 run'.2

theorem RunsAlike.ask {world world₁ world₂ after₁ after₂ : World} {request request' : Request}
    {next : request.Reply → Program α} {next' : request'.Reply → Program α'}
    {reply : request.Reply} {reply' : request'.Reply} (hreply : world₁.reply request = (reply, after₁))
    (hreply' : world₂.reply request' = (reply', after₂))
    (h : RunsAlike world related ((next reply).run after₁) ((next' reply').run after₂)) :
    RunsAlike world related ((Program.ask request next).run world₁)
      ((Program.ask request' next').run world₂) := by
  rw [run_ask, run_ask, hreply, hreply']
  exact h

/-- Programs that mirror each other do the same, where the same comes of calls of both services, and
both are installed. -/
theorem Mirrors.run {world : World} (h : Mirrors related program program')
    (hscripts : world.scripts.Agree) (hopenAi : "openai".toList ∉ world.missingPackages)
    (hanthropic : "anthropic".toList ∉ world.missingPackages) {world₁ world₂ : World}
    (hworlds : world.Mirrored world₁ world₂) :
    RunsAlike world related (program.run world₁) (program'.run world₂) := by
  -- Each request leaves other worlds, so the induction is for all that the world can become.
  induction h generalizing world₁ world₂ with
  | done h => exact ⟨.ok h, hworlds⟩
  | raise h => exact ⟨.error h, hworlds⟩
  | @ask request next next' hrequest h ih =>
    obtain ⟨count, hevents⟩ := hworlds
    exact .ask (World.reply_answered hrequest _ _ _) (World.reply_answered hrequest _ _ _)
      (ih _ (.answered count hevents))
  | @emit event event' next next' hevent h ih =>
    obtain ⟨count, hevents⟩ := hworlds
    have hreply (service : Service) (events : List Event) (event : Event) :
        (world.answered service count events).reply (.emit event) =
          (.ok (), world.answered service count (events ++ [event])) :=
      congrArg (Except.ok (), ·) (World.shows_answered service count events event)
    exact .ask (hreply _ _ _) (hreply _ _ _)
      (ih _ (.answered count (List.rel_append hevents (.cons hevent .nil))))
  | @call call call' next next' hcall h ih =>
    obtain ⟨count, hevents⟩ := hworlds
    have hreply (call : Call) (events : List Event) :
        (world.answered call.service count events).reply (.call call) =
          (((world.scripts.drop count call.service).answer call).1,
            world.answered call.service (count + 1) (events ++ [.called call])) := by
      rw [World.reply_call, World.answered_answered]
      rfl
    exact .ask (hreply (.openAi call) _) (hreply (.anthropic call') _)
      (ih _ _ (hscripts.answer count call call')
        (.answered (count + 1) (List.rel_append hevents (.cons (.called hcall) .nil))))
  | package h ih =>
    obtain ⟨count, hevents⟩ := hworlds
    exact .ask (World.reply_hasPackage hopenAi) (World.reply_hasPackage hanthropic)
      (ih (.answered count hevents))

end Program

open Program

/-! ### Answers -/

theorem ended_answer {outcome : Except Fault OpenAi.Response}
    {outcome' : Except Fault Anthropic.Response} (h : SameOutcome outcome outcome') :
    Ended (· = ·) (outcome.bind OpenAi.Response.answer)
      (outcome'.bind Anthropic.Response.answer) := by
  cases h with
  | text => exact .ok rfl
  | noText => exact .error (.renamed (.translator []) (.title [] " returned empty content."))
  | noBlock => exact .error (.renamed (.translator []) (.title [] " returned empty content."))
  | raised => exact .error (.same _)

theorem mirrors_once {call : OpenAi.Call} {call' : Anthropic.Call}
    (h : (Call.openAi call).Mirrors (.anthropic call')) :
    Mirrors (Ended (· = ·)) (OpenAi.once call) (Anthropic.once call') :=
  .call h fun _ _ houtcome => .done (ended_answer houtcome)

theorem renamed_warning (backoff : Backoff) (number : Nat) (delay : Double) (fault : Fault) :
    Renamed (OpenAi.warning backoff number delay fault)
      (Anthropic.warning backoff number delay fault) := by
  have h := Renamed.title [] (" API error (attempt ".toList ++ (Text.ofNat (number + 1) ++
    ("/".toList ++ (Text.ofNat (backoff.retries + 1) ++ ("), retrying in ".toList ++
    (delay.fixedText 1 ++ ("s: ".toList ++ fault.message)))))))
  simp only [List.nil_append, ← List.append_assoc] at h
  exact h

theorem renamed_logSource : Renamed OpenAi.logSource Anthropic.logSource := .name "rpncalc.nl." []

theorem mirrors_askFrom (backoff : Backoff) {call : OpenAi.Call} {call' : Anthropic.Call}
    (h : (Call.openAi call).Mirrors (.anthropic call')) (failed left : Nat) :
    Mirrors (· = ·) (OpenAi.askFrom backoff call failed left)
      (Anthropic.askFrom backoff call' failed left) := by
  -- By induction on how many calls there may still be.
  induction left generalizing failed with
  | zero => exact (mirrors_once h).bind fun _ _ => mirrors_ended
  | succ left ih =>
    apply (mirrors_once h).bind
    intro result result' hresult
    cases hresult with
    | ok hanswer => exact .done hanswer
    | @error fault _ hfault =>
      -- Faults that differ in the name of the service are failures, after which none asks again.
      cases hfault with
      | renamed failure htext => exact .raise (.renamed failure htext)
      | same =>
        dsimp only
        split
        · cases backoff.delay failed with
          | error fault => exact .raise (.same fault)
          | ok delay =>
            apply (mirrors_emit (.logged .warning renamed_logSource
              (renamed_warning backoff failed delay fault))).bind
            rintro _ _ -
            apply (mirrors_emit (.slept delay)).bind
            rintro _ _ -
            exact ih (failed + 1)
        · exact .raise (.same fault)

/-! ### Translators -/

/-- Translators whose answers mirror each other. -/
structure Translator.Mirrors (translator translator' : Translator) : Prop where
  deterministic : translator'.deterministic = translator.deterministic
  answer (request : Text) (notes : Option (List Text)) :
    Program.Mirrors (· = ·) (translator.answer request notes) (translator'.answer request notes)

theorem userText_eq (request : Text) (notes : Option (List Text)) :
    Anthropic.userText request notes = OpenAi.userText request notes := by
  rcases notes with _ | _ | _ <;> rfl

theorem mirrors_translator (model instructions : Text) :
    Translator.Mirrors (OpenAi.translator model instructions)
      (Anthropic.translator model instructions) := by
  refine ⟨rfl, fun request notes => ?_⟩
  have hcall := Call.Mirrors.texts model (Text.stripped instructions ++ "\n")
    (OpenAi.userText request notes) Anthropic.maxTokens
  rw [← userText_eq] at hcall
  apply Mirrors.bind (mirrors_askFrom .standard hcall 0 _)
  rintro answer _ rfl
  cases answerExpression answer with
  | ok expression => exact .done rfl
  | error failure => exact .raise (.same _)

theorem Translator.Mirrors.attemptsFrom {translator translator' : Translator}
    (h : translator.Mirrors translator') (request : Text) (made : Nat)
    (notes : Option (List Text)) (left : Nat) :
    Program.Mirrors (· = ·) (translator.attemptsFrom request made notes left)
      (translator'.attemptsFrom request made notes left) := by
  -- By induction on how many attempts are left.
  induction left generalizing made notes with
  | zero => exact .done rfl
  | succ left ih =>
    apply ((h.answer request notes).translating).bind
    rintro expression _ rfl
    dsimp only
    rw [h.deterministic]
    split
    · exact .done rfl
    · exact ih _ _

theorem renamed_missingKey (variableName : Text) :
    (Fault.failure (OpenAi.missingKey variableName)).Mirrors
      (.failure (Anthropic.missingKey variableName)) := by
  have h := Renamed.name ("Missing API key: ".toList ++ (variableName ++
    ". Set it in the environment before using nl.provider = '".toList)) "'."
  simp only [List.append_assoc] at h
  rw [OpenAi.missingKey, Anthropic.missingKey]
  simp only [List.append_assoc]
  exact .renamed (.config []) h

theorem mirrors_requirePackage :
    Mirrors (· = ·) OpenAi.requirePackage Anthropic.requirePackage :=
  .package (.done rfl)

theorem mirrors_connect (settings : TranslatorSettings) :
    Mirrors Translator.Mirrors (OpenAi.connect settings) (Anthropic.connect settings) := by
  apply (OnlyReads.mirrors (only_request rfl)).bind
  rintro key _ rfl
  dsimp only
  split
  · exact .raise (renamed_missingKey _)
  · apply mirrors_requirePackage.bind
    rintro _ _ -
    apply (mirrors_emit (.connected _)).bind
    rintro _ _ -
    apply (onlyReads_promptAt _).mirrors.bind
    rintro instructions _ rfl
    cases instructions with
    | ok instructions => exact .done (mirrors_translator _ _)
    | error fault => exact .raise (.same _)

/-! ### Translations -/

/-- The candidate for a request after at most `limit` attempts of a translator made for this. -/
def TranslatorSettings.candidate (settings : TranslatorSettings) (limit : Int) (request : Text) :
    Program Candidate := do
  (← settings.translator).translateWithin limit request

/-- Where both services are installed, and the same comes of their calls, they do the same for a
request, however often they are asked: they end with the same candidate or with faults of the same
kind, having used up as many outcomes and shown the same events, in all of which only the name of the
service differs. -/
theorem services_interchangeable (settings : TranslatorSettings) (limit : Int) (request : Text)
    {world : World} (hscripts : world.scripts.Agree)
    (hopenAi : Service.openai.name ∉ world.missingPackages)
    (hanthropic : Service.anthropic.name ∉ world.missingPackages) :
    RunsAlike world (· = ·)
      ((TranslatorSettings.candidate { settings with provider := .service .openai } limit
        request).run world)
      ((TranslatorSettings.candidate { settings with provider := .service .anthropic } limit
        request).run world) := by
  have hmirrors : Mirrors (· = ·)
      (TranslatorSettings.candidate { settings with provider := .service .openai } limit request)
      (TranslatorSettings.candidate { settings with provider := .service .anthropic } limit
        request) := by
    apply (mirrors_connect settings).bind
    intro translator translator' htranslator
    exact htranslator.attemptsFrom request 0 none limit.toNat
  exact hmirrors.run hscripts hopenAi hanthropic world.mirrored_self

/-- Settings with a key, and a world in which services answer a rejected expression, then fail for a
while, and then answer without text. -/
def mirroredSettings : TranslatorSettings := ⟨.rules, "model", "KEY", []⟩

def mirroredWorld : World where
  environment := [("KEY", "secret")]
  scripts :=
    { openAi := ⟨[.ok ⟨[some "2 plus (3"]⟩,
        .error (.foreign { name := "RateLimitError", text := some "slow" }), .ok ⟨[none]⟩],
        .ok ⟨[none]⟩⟩
      anthropic := ⟨[.ok ⟨[some "2 plus (3"]⟩,
        .error (.foreign { name := "RateLimitError", text := some "slow" }), .ok ⟨[]⟩],
        .ok ⟨[none]⟩⟩ }

theorem services_interchangeable_unanswered :
    ((TranslatorSettings.candidate { mirroredSettings with provider := .service .anthropic } 2
      "two plus three").run mirroredWorld).1 =
        .error (.failure (.translator "Anthropic returned empty content.")) ∧
    RunsAlike mirroredWorld (· = ·)
      ((TranslatorSettings.candidate { mirroredSettings with provider := .service .openai } 2
        "two plus three").run mirroredWorld)
      ((TranslatorSettings.candidate { mirroredSettings with provider := .service .anthropic } 2
        "two plus three").run mirroredWorld) :=
  ⟨by decide +kernel, services_interchangeable mirroredSettings 2 "two plus three"
    ⟨.cons (.text _ _ _) (.cons (.raised _) (.cons (.noBlock _) .nil)), .noText _ _⟩ (by decide)
    (by decide)⟩

end Reckoner
