import Reckoner.Proofs.Command.Steps
import Reckoner.Proofs.Program.Faults
import Reckoner.Proofs.Program.Hosts
import Reckoner.Proofs.Translator.Mirrored

/-! Which faults of a translation are reported.  Whatever services answer, a translation ends with a
candidate or a failure that is reported, unless the file with the instructions is read and is no text,
or a service passes on a failure of the calculator's own.  The command that translates ends with an
exit code then, unless its output does not take what it prints. -/

namespace Reckoner

open Program

/-! ### Kinds of faults -/

/-- A fault that a command reports which translates a request. -/
def Fault.IsReported (fault : Fault) : Prop :=
  ∃ failure, fault = .failure failure ∧ failure.stage ∈ Command.translatorStages

/-- A failure of another part of the calculator that a service may raise in a world. -/
structure World.Strays (world : World) (fault : Fault) : Prop where
  raised : .error fault ∈ world.scripts.openAi.all ∨ .error fault ∈ world.scripts.anthropic.all
  foreign : ∃ failure, fault = .failure failure ∧ failure.stage ∉ Command.translatorStages

/-- What the reading of a file as text crashes with: its name is none, or its bytes are no text. -/
inductive World.Garbles (world : World) (path : Path) : Crash → Prop
  | zeroInName (h : world.disk.read world.folder path = .error .zeroInName) :
    Garbles world path (.disk .zeroInName)
  | undecodable {bytes : Utf8.Bytes} {fault : Utf8.Fault}
    (hread : world.disk.read world.folder path = .ok bytes)
    (hdecode : Utf8.decode bytes = .error fault) : Garbles world path (.undecodable fault)

namespace TranslatorSettings

variable {settings : TranslatorSettings} {world : World} {crash : Crash}

/-- The key of the service that the settings select. -/
def key (settings : TranslatorSettings) (world : World) : Text :=
  Text.stripped ((world.environment.lookup settings.keyVariable).getD [])

/-- The settings select a service, there is a key for it, and the file that they name for the
instructions crashes its reader. -/
structure PromptBreaks (settings : TranslatorSettings) (world : World) (crash : Crash) : Prop where
  asks : ∃ service, settings.provider = .service service
  key : settings.key world ≠ []
  named : settings.promptPath ≠ []
  garbles : world.Garbles (.ofText settings.promptPath) crash

end TranslatorSettings

variable {world : World} {allowed : Fault → Prop}

/-- The faults that a translation may end with if its instructions are text. -/
def World.Allows (world : World) (fault : Fault) : Prop := fault.IsReported ∨ world.Strays fault

theorem isReported_translator (text : Text) : (Fault.failure (.translator text)).IsReported :=
  ⟨_, rfl, List.mem_cons_of_mem _ List.mem_cons_self⟩

theorem isReported_config (text : Text) : (Fault.failure (.config text)).IsReported :=
  ⟨_, rfl, List.mem_cons_self⟩

/-! ### Answers -/

/-- A fault that may remain once it is a failure. -/
def World.Raises (world : World) (fault : Fault) : Prop := world.Allows (.failure fault.translated)

theorem raises_of_failures {fault : Fault}
    (h : ∀ failure, fault = .failure failure → world.Allows (.failure failure)) :
    world.Raises fault := by
  -- What is no failure becomes one of the translator, and is reported.
  cases fault with
  | failure failure => exact h failure rfl
  | foreign error => exact .inl (isReported_translator _)
  | crash crash => exact .inl (isReported_translator _)

theorem raises_of_raised {fault : Fault}
    (h : .error fault ∈ world.scripts.openAi.all ∨ .error fault ∈ world.scripts.anthropic.all) :
    world.Raises fault := by
  apply raises_of_failures
  rintro failure rfl
  by_cases hstage : failure.stage ∈ Command.translatorStages
  · exact .inl ⟨failure, rfl, hstage⟩
  · exact .inr ⟨h, failure, rfl, hstage⟩

theorem OpenAi.raises_of_answer {response : OpenAi.Response} {fault : Fault}
    (h : response.answer = .error fault) : world.Raises fault := by
  rw [Response.answer] at h
  split at h <;> cases h <;> exact .inl (isReported_translator _)

theorem Anthropic.raises_of_answer {response : Anthropic.Response} {fault : Fault}
    (h : response.answer = .error fault) : world.Raises fault := by
  rw [Response.answer.eq_def] at h
  split at h <;> cases h <;> exact .inl (isReported_translator _)

theorem faultsIn_once {α : Type} (call : Call) {next : Except Fault Text → Program α}
    (hnext : ∀ result, (∀ fault, result = .error fault → world.Raises fault) →
      (next result).FaultsIn world allowed) :
    (call.calling.once >>= next).FaultsIn world allowed := by
  cases call with
  | openAi call =>
    refine faultsIn_request rfl fun outcome houtcome => hnext _ fun fault hfault => ?_
    cases outcome with
    | error raised =>
      obtain rfl : raised = fault := Except.error.inj hfault
      exact raises_of_raised (.inl houtcome)
    | ok response => exact OpenAi.raises_of_answer hfault
  | anthropic call =>
    refine faultsIn_request rfl fun outcome houtcome => hnext _ fun fault hfault => ?_
    cases outcome with
    | error raised =>
      obtain rfl : raised = fault := Except.error.inj hfault
      exact raises_of_raised (.inr houtcome)
    | ok response => exact Anthropic.raises_of_answer hfault

theorem faultsIn_ended {α : Type} {result : Except Fault α}
    (h : ∀ fault, result = .error fault → allowed fault) :
    (Program.ended result).FaultsIn world allowed := by
  cases result with
  | ok value => trivial
  | error fault => exact h fault rfl

theorem raises_of_delay {backoff : Backoff} {number : ℕ} {fault : Fault}
    (h : backoff.delay number = .error fault) : world.Raises fault := by
  rw [Backoff.delay] at h
  split at h <;> cases h
  exact .inl (isReported_translator _)

theorem faultsIn_askFrom (backoff : Backoff) (call : Call) (failed left : ℕ) :
    (call.calling.askFrom backoff failed left).FaultsIn world world.Raises := by
  -- By induction on how many calls there may still be.
  induction left generalizing failed with
  | zero => exact faultsIn_once call fun result hresult => faultsIn_ended hresult
  | succ left ih =>
    apply faultsIn_once
    intro result hresult
    cases result with
    | ok answer => trivial
    | error fault =>
      dsimp only
      split
      · exact (faultsIn_ended fun _ => raises_of_delay).bind fun delay =>
          (faultsIn_emit _).bind fun _ => (faultsIn_emit _).bind fun _ => ih (failed + 1)
      · exact hresult fault rfl

theorem eq_of_answerExpression_error {answer : Text} {failure : Failure}
    (h : answerExpression answer = .error failure) : failure = emptyAnswer := by
  rw [answerExpression] at h
  split at h
  · exact (Except.error.inj h).symm
  · split at h
    · exact (Except.error.inj h).symm
    · cases h

/-- A translator whose answers raise nothing else. -/
def Translator.RaisesIn (translator : Translator) (world : World) : Prop :=
  ∀ request notes, (translator.answer request notes).FaultsIn world world.Raises

theorem raisesIn_rules : Translator.rules.RaisesIn world := fun _ _ => trivial

theorem raisesIn_translator (backend : Backend) (model instructions : Text) :
    (backend.translator model instructions).RaisesIn world := by
  intro request notes
  have hask (call : Call) : (call.ask .standard).FaultsIn world world.Raises := by
    rw [Call.ask_eq]
    exact faultsIn_askFrom _ _ _ _
  apply (hask _).bind
  intro answer
  cases hanswer : answerExpression answer with
  | ok expression => trivial
  | error failure =>
    rw [eq_of_answerExpression_error hanswer]
    exact .inl (isReported_translator _)

theorem Translator.RaisesIn.attemptsFrom {translator : Translator} (h : translator.RaisesIn world)
    (request : Text) (made left : ℕ) (notes : Option (List Text)) :
    (translator.attemptsFrom request made notes left).FaultsIn world world.Allows := by
  -- By induction on how many attempts are left.
  induction left generalizing made notes with
  | zero => trivial
  | succ left ih =>
    apply (h request notes).translating.bind
    intro expression
    dsimp only
    split
    · trivial
    · exact ih _ _

/-! ### Instructions -/

theorem textIn_of_garbles {path : Path} {crash : Crash} (h : world.Garbles path crash) :
    Journal.textIn (world.disk.read world.folder path) = .error crash := by
  cases h with
  | zeroInName h => rw [h, Journal.textIn]
  | undecodable hread hdecode => rw [hread, Journal.textIn, hdecode]

theorem faultsIn_readText {path : Path} (h : ∀ crash, ¬world.Garbles path crash) :
    (readText path).FaultsIn world allowed := by
  refine ⟨rfl, ?_⟩
  rintro reply rfl
  change (ofDisk (world.disk.read world.folder path) >>= _).FaultsIn world allowed
  cases hread : world.disk.read world.folder path with
  | error fault =>
    cases fault with
    | zeroInName => exact absurd (.zeroInName hread) (h _)
    -- That there is no such file is a value, which is reported later.
    | _ => trivial
  | ok bytes =>
    change (decodeText bytes >>= _).FaultsIn world allowed
    rw [decodeText]
    cases hdecode : Utf8.decode bytes with
    | ok text => trivial
    | error fault => exact absurd (.undecodable hread hdecode) (h _)

theorem faultsIn_promptAt {path : Text}
    (h : path ≠ [] → ∀ crash, ¬world.Garbles (.ofText path) crash) :
    (promptAt path).FaultsIn world allowed := by
  rw [promptAt]
  split
  · trivial
  · next hnamed => exact faultsIn_readText (h (mt List.isEmpty_iff.mpr hnamed))

theorem backend_package (service : Service) : service.backend.package = service.name := by
  cases service <;> rfl

theorem faultsIn_requirePackage {service : Service} (h : service.name ∉ world.missingPackages) :
    service.backend.requirePackage.FaultsIn world allowed := by
  apply faultsIn_request rfl
  rintro reply rfl
  rw [backend_package, World.reply_hasPackage h]
  trivial

section Settings

variable {settings : TranslatorSettings} {service : Service} {crash : Crash}

theorem isReported_missingKey (service : Service) (variableName : Text) :
    (Fault.failure (service.backend.missingKey variableName)).IsReported := by
  cases service <;> exact isReported_config _

theorem isReported_unreadablePrompt (service : Service) (path : Text) :
    (Fault.failure (service.backend.unreadablePrompt path)).IsReported := by
  cases service <;> exact isReported_config _

theorem faultsIn_connect (hinstalled : service.name ∉ world.missingPackages)
    (hprovider : settings.provider = .service service)
    (h : ∀ crash, ¬settings.PromptBreaks world crash) :
    (service.backend.connect settings).FaultsIn world world.Allows := by
  apply faultsIn_request rfl
  rintro key rfl
  dsimp only
  split
  case isTrue => exact .inl (isReported_missingKey _ _)
  case isFalse hkey =>
    apply (faultsIn_requirePackage hinstalled).bind
    intro _
    apply (faultsIn_emit _).bind
    intro _
    have hprompt : (promptAt settings.promptPath).FaultsIn world world.Allows :=
      faultsIn_promptAt fun hnamed crash hgarbles =>
        h crash ⟨⟨service, hprovider⟩, mt List.isEmpty_iff.mpr hkey, hnamed, hgarbles⟩
    apply hprompt.bind
    intro instructions
    cases instructions with
    | ok instructions => trivial
    | error fault => exact .inl (isReported_unreadablePrompt _ _)

/-- The translator that the settings select is made, or that fails in a way that is reported. -/
theorem faultsIn_translator (hinstalled : ∀ service : Service, service.name ∉ world.missingPackages)
    (h : ∀ crash, ¬settings.PromptBreaks world crash) :
    settings.translator.FaultsIn world world.Allows := by
  cases hprovider : settings.provider with
  | rules =>
    rw [TranslatorSettings.translator_of_rules hprovider]
    trivial
  | service service =>
    rw [TranslatorSettings.translator_of_service hprovider]
    exact faultsIn_connect (hinstalled service) hprovider h

theorem yields_translator (settings : TranslatorSettings) :
    settings.translator.Yields fun translator => translator.RaisesIn world := by
  cases hprovider : settings.provider with
  | rules =>
    rw [TranslatorSettings.translator_of_rules hprovider]
    exact raisesIn_rules
  | service service =>
    rw [TranslatorSettings.translator_of_service hprovider]
    exact yields_connect _ settings (raisesIn_translator _ _)

theorem run_requirePackage (h : service.name ∉ world.missingPackages) :
    service.backend.requirePackage.run world = (.ok (), world) := by
  have hrun : (hasPackage service.name).run world = (.ok true, world) := by
    change (Except.ok (world.reply (.hasPackage service.name)).1, _) = _
    rw [World.reply_hasPackage h]
    rfl
  rw [Backend.requirePackage, backend_package, run_bind_of_ok hrun]
  rfl

/-- Where the file with the instructions is no text, its reader crashes. -/
theorem run_translator_of_breaks
    (hinstalled : ∀ service : Service, service.name ∉ world.missingPackages)
    (h : settings.PromptBreaks world crash) :
    ∃ after, settings.translator.run world = (.error (.crash crash), after) := by
  obtain ⟨service, hprovider⟩ := h.asks
  have hkey : (settings.key world).isEmpty = false := List.isEmpty_eq_false_iff.mpr h.key
  have hnamed : settings.promptPath.isEmpty = false := List.isEmpty_eq_false_iff.mpr h.named
  have hread : (promptAt settings.promptPath).run (world.shows (.connected (settings.key world))) =
      (.error (.crash crash), world.shows (.connected (settings.key world))) := by
    rw [promptAt, hnamed, if_neg Bool.false_ne_true, Journal.run_readText]
    exact congrArg (fun text => (Except.mapError Fault.crash text, _)) (textIn_of_garbles h.garbles)
  have henvironment : (environment settings.keyVariable).run world =
      (.ok (world.environment.lookup settings.keyVariable), world) := rfl
  -- The key and the package are there, so the service is connected before the file is read.
  rw [TranslatorSettings.translator_of_service hprovider, Backend.connect,
    run_bind_of_ok henvironment]
  dsimp only
  rw [← TranslatorSettings.key, hkey, if_neg Bool.false_ne_true,
    run_bind_of_ok (run_requirePackage (hinstalled service))]
  have hconnected : (emit (.connected (settings.key world))).run world =
      (.ok (), world.shows (.connected (settings.key world))) := rfl
  rw [run_bind_of_ok hconnected, run_bind_of_error hread]
  exact ⟨_, rfl⟩

theorem faultsIn_translator_bind {β : Type} {next : Translator → Program β}
    (hinstalled : ∀ service : Service, service.name ∉ world.missingPackages)
    (h : ∀ crash, ¬settings.PromptBreaks world crash)
    (hnext : ∀ translator : Translator, translator.RaisesIn world →
      (next translator).FaultsIn world world.Allows) :
    (settings.translator >>= next).FaultsIn world world.Allows :=
  (faultsIn_translator hinstalled h).bind_of_yields (yields_translator settings) hnext

end Settings

/-! ### The command -/

namespace Command

variable {settings : Settings} {common : CommonArguments} {crash : Crash}

theorem begun_eq (verbose : Bool) (world : World) :
    begun verbose world = { world with events := (begun verbose world).events } := by
  cases verbose <;> rfl

theorem breaks_begun {settings : TranslatorSettings} (h : settings.PromptBreaks world crash)
    (verbose : Bool) : settings.PromptBreaks (begun verbose world) crash := by
  obtain ⟨hasks, hkey, hnamed, hgarbles⟩ := h
  rw [begun_eq]
  refine ⟨hasks, hkey, hnamed, ?_⟩
  cases hgarbles with
  | zeroInName h => exact .zeroInName h
  | undecodable hread hdecode => exact .undecodable hread hdecode

section Translated

variable (hinstalled : ∀ service : Service, service.name ∉ world.missingPackages)
  (hsettings : (common.settings.run world).1 = .ok settings) (verbose : Bool) (request : Text)

include hsettings in
theorem run_translated_begun : (translated common request).run (begun verbose world) =
    (settings.translator.translator >>= fun translator => logWaiting >>= fun _ =>
      translator.translate request >>= fun candidate => pure (settings, candidate)).run
        (begun verbose world) := by
  have hrun : common.settings.run (begun verbose world) = (.ok settings, begun verbose world) := by
    refine Prod.ext ?_ ((onlyReads_settings common).run_snd _)
    rw [begun_eq, run_fst_of_events, hsettings]
  rw [translated, run_bind_of_ok hrun]

include hinstalled hsettings

theorem run_translated_of_breaks (h : settings.translator.PromptBreaks world crash) :
    ∃ after, (translated common request).run (begun verbose world) =
      (.error (.crash crash), after) := by
  have hbegun : ∀ service : Service, service.name ∉ (begun verbose world).missingPackages := by
    rw [begun_eq]
    exact hinstalled
  obtain ⟨after, hrun⟩ := run_translator_of_breaks hbegun (breaks_begun h verbose)
  rw [run_translated_begun hsettings, run_bind_of_error hrun]
  exact ⟨after, rfl⟩

theorem allows_of_run_translated (h : ∀ crash, ¬settings.translator.PromptBreaks world crash)
    {fault : Fault} {after : World}
    (hrun : (translated common request).run (begun verbose world) = (.error fault, after)) :
    world.Allows fault := by
  rw [run_translated_begun hsettings, begun_eq] at hrun
  refine (faultsIn_translator_bind hinstalled h ?_).run (World.recedes_of_events world _)
    (congrArg Prod.fst hrun)
  intro translator hraises
  apply (faultsIn_emit _).bind
  intro _
  apply (hraises.attemptsFrom request 0 _ none).bind
  intro candidate
  trivial

end Translated

theorem exists_run_warnAll (errors : List Text) (world : World) :
    ∃ after, (warnAll errors).run world = (.ok (), after) := by
  induction errors generalizing world with
  | nil => exact ⟨world, rfl⟩
  | cons error errors ih => exact ih _

theorem inquires_warnAll (errors : List Text) : (warnAll errors).Inquires := by
  induction errors with
  | nil => trivial
  | cons error errors ih => exact only_bind (only_emit rfl) fun _ => ih

/-- How a translation may end on a system with an output that declines some texts: with an exit code,
at a line that the output declines, or with another fault. -/
inductive EndsAs (declined : LooseText → Option OutputFault) (allowed : Fault → Prop) :
    Except Fault Nat → Prop
  | code {code : Nat} (h : code ∈ [0, 2, 3]) : EndsAs declined allowed (.ok code)
  | declined {text : LooseText} {fault : OutputFault} (h : declined text = some fault) :
    EndsAs declined allowed (.error (.crash (.output fault)))
  | fault {fault : Fault} (h : allowed fault) : EndsAs declined allowed (.error fault)

section Printing

variable {declined : LooseText → Option OutputFault}

theorem endsAs_print {next : Unit → Program Nat} (line : LooseText)
    (hnext : ∀ world, EndsAs declined allowed ((next ()).runOn (.printing declined) world).1)
    (world : World) :
    EndsAs declined allowed ((print line >>= next).runOn (.printing declined) world).1 := by
  rcases runOn_print_printing declined line world with hrun | ⟨text, fault, hdeclined, hrun⟩
  · rw [runOn_bind_of_ok hrun]
    exact hnext _
  · rw [runOn_bind_of_error hrun]
    exact .declined hdeclined

/-- A translation has an exit code, unless its output declines a line, or it ends with a fault that is
not reported. -/
theorem endsAs_translate (arguments : TranslateArguments) (world : World)
    (hunreported : ∀ fault after, ¬fault.IsReported →
      (translated arguments.common (joinedWords arguments.words)).run world = (.error fault, after) →
      allowed fault) :
    EndsAs declined allowed ((translate arguments).runOn (.printing declined) world).1 := by
  have hcodes : ∀ stage ∈ translatorStages, stage.exitCode ∈ [0, 2, 3] := by decide
  rw [translate]
  refine runOn_orElse (fun ended => EndsAs declined allowed ended.1) (fun result between _ => ?_)
    (fun failure between _ hstage => ?_) fun fault between hrun hunmet => ?_
  · -- The candidate is printed, and whether it has errors decides about the code.
    obtain ⟨settings, candidate⟩ := result
    have hcode (world : World) : EndsAs declined allowed ((pure (if candidate.errors.isEmpty then
        success else Stage.translator.exitCode) : Program Nat).runOn (.printing declined) world).1 := by
      refine .code ?_
      split <;> decide
    dsimp only
    split
    · exact endsAs_print _ hcode _
    · refine endsAs_print _ (fun world => ?_) _
      obtain ⟨after, hwarn⟩ := exists_run_warnAll candidate.errors world
      rw [← (inquires_warnAll candidate.errors).runOn_printing declined] at hwarn
      rw [runOn_bind_of_ok hwarn]
      exact hcode after
  · have hcode (world : World) : EndsAs declined allowed
        ((pure failure.stage.exitCode : Program Nat).runOn (.printing declined) world).1 :=
      .code (hcodes _ (List.elem_iff.mp hstage))
    rw [report]
    split
    · exact endsAs_print _ hcode _
    · exact hcode _
  · rw [(inquires_translated _ _).runOn_printing] at hrun
    refine .fault (hunreported fault between ?_ hrun)
    rintro ⟨failure, rfl, hstage⟩
    exact absurd (List.elem_iff.mpr hstage) (Bool.eq_false_iff.mp (hunmet failure rfl))

theorem runOn_execute {words : List Text} {arguments : TranslateArguments}
    (h : Arguments.read words = .ok (.translate arguments)) (world : World) :
    (execute words).runOn (.printing declined) world =
      (translate arguments).runOn (.printing declined) (begun arguments.common.verbose world) := by
  have hrun : (Arguments.translate arguments).run = if arguments.common.verbose then
      showLog >>= fun _ => translate arguments else translate arguments := rfl
  have hexecute : execute words = (Arguments.translate arguments).run := by rw [execute, h]
  rw [hexecute, hrun, begun]
  split
  · exact runOn_bind_of_ok rfl
  · rfl

end Printing

/-- Translations are reported unless the instructions cannot be read as text.  Where the services are
installed, a translation ends with a candidate or with a failure of the settings or of the translator,
and the command that translates ends with 0, 2 or 3, unless the settings select a service for which
there is a key, and name a file with instructions that crashes its reader; then both end with that
crash.  Else there are two exceptions: a service that raises a failure of another part of the
calculator, and an output that does not take what the command prints. -/
theorem translations_reported
    (hinstalled : ∀ service : Service, service.name ∉ world.missingPackages) :
    (∀ (settings : TranslatorSettings) (limit : Int) (request : Text),
      (∀ crash, settings.PromptBreaks world crash →
        ((settings.candidate limit request).run world).1 = .error (.crash crash)) ∧
      ((∀ crash, ¬settings.PromptBreaks world crash) → ∀ fault,
        ((settings.candidate limit request).run world).1 = .error fault →
          fault.IsReported ∨ world.Strays fault)) ∧
    ∀ declined words arguments settings, Arguments.read words = .ok (.translate arguments) →
      (arguments.common.settings.run world).1 = .ok settings →
      (∀ crash, settings.translator.PromptBreaks world crash →
        ((execute words).runOn (.printing declined) world).1 = .error (.crash crash)) ∧
      ((∀ crash, ¬settings.translator.PromptBreaks world crash) →
        EndsAs declined world.Strays ((execute words).runOn (.printing declined) world).1) := by
  refine ⟨fun settings limit request => ⟨fun crash h => ?_, fun h fault hrun => ?_⟩,
    fun declined words arguments settings hread hsettings => ⟨fun crash h => ?_, fun h => ?_⟩⟩
  · obtain ⟨after, hrun⟩ := run_translator_of_breaks hinstalled h
    rw [TranslatorSettings.candidate, run_bind_of_error hrun]
  · refine (faultsIn_translator_bind hinstalled h ?_).run (.refl world) hrun
    intro translator hraises
    exact hraises.attemptsFrom request 0 limit.toNat none
  · obtain ⟨after, hrun⟩ := run_translated_of_breaks hinstalled hsettings
      arguments.common.verbose (joinedWords arguments.words) h
    rw [runOn_execute hread, translate, orElse, runOn_bind, runOn_attempt,
      (inquires_translated _ _).runOn_printing, hrun]
    rfl
  · rw [runOn_execute hread]
    refine endsAs_translate arguments _ fun fault after hunreported hrun => ?_
    exact (allows_of_run_translated hinstalled hsettings _ _ h hrun).resolve_left hunreported

end Command

/-! Instructions in a file, in a world without the file and in one where the file is no text. -/

def promptSettings : TranslatorSettings := ⟨.service .openai, "model", "KEY", "p.md"⟩

def unpromptedWorld : World where
  environment := [("KEY", "secret")]

def garbledWorld : World where
  disk := ⟨[(["p.md"], .file [0xff])]⟩
  environment := [("KEY", "secret")]

theorem installed_of_nil (h : world.missingPackages = []) (service : Service) :
    service.name ∉ world.missingPackages := by
  rw [h]
  exact List.not_mem_nil

theorem translations_reported_unprompted :
    (∀ service : Service, service.name ∉ unpromptedWorld.missingPackages) ∧
      ((promptSettings.candidate 2 "two plus three").run unpromptedWorld).1 =
        .error (.failure (OpenAi.unreadablePrompt "p.md")) ∧
      ((Fault.failure (OpenAi.unreadablePrompt "p.md")).IsReported ∨
        unpromptedWorld.Strays (.failure (OpenAi.unreadablePrompt "p.md"))) := by
  have hinstalled := @installed_of_nil unpromptedWorld rfl
  have hrun : ((promptSettings.candidate 2 "two plus three").run unpromptedWorld).1 =
      .error (.failure (OpenAi.unreadablePrompt "p.md")) := by decide +kernel
  have hunbroken (crash : Crash) : ¬promptSettings.PromptBreaks unpromptedWorld crash := by
    intro h
    have hread : unpromptedWorld.disk.read unpromptedWorld.folder
        (.ofText promptSettings.promptPath) = .error .missing := by decide +kernel
    cases h.garbles with
    | zeroInName hzero => cases hread.symm.trans hzero
    | undecodable hbytes => cases hread.symm.trans hbytes
  exact ⟨hinstalled, hrun,
    ((Command.translations_reported hinstalled).1 _ _ _).2 hunbroken _ hrun⟩

theorem not_translations_reported :
    (∀ service : Service, service.name ∉ garbledWorld.missingPackages) ∧
      ((promptSettings.candidate 2 "two plus three").run garbledWorld).1 =
        .error (.crash (.undecodable ⟨0, [0xff], .start⟩)) :=
  ⟨installed_of_nil rfl, by decide +kernel⟩

end Reckoner
