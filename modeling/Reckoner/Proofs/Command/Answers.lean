import Reckoner.Proofs.Command.Lines
import Reckoner.Proofs.Command.Objects
import Reckoner.Proofs.Command.Steps

/-! What commands answer in JSON.  A spoken request is answered as its translation is and, if that
gives an expression, as the evaluation of the expression is. -/

namespace Reckoner.Command

open Json (Value)

/-- A command that ends with a fault. -/
def Raises (program : Program Nat) (world : World) (fault : Fault) : Prop :=
  (program.run world).1 = .error fault

/-- A command that ends with an exit code and prints nothing but this object, on a line of its
own. -/
structure Answers (program : Program Nat) (world : World) (code : Nat)
    (members : List (LooseText × Value)) (after : World) : Prop where
  run : program.run world = (.ok code, after)
  output : Event.output (program.events world) = (Value.object members).write .compact ++ "\n"

/-- The members with these keys are the same in two objects. -/
def SameMembers (keys : List LooseText) (members members' : List (LooseText × Value)) : Prop :=
  ∀ key ∈ keys, Value.member? key members' = Value.member? key members

/-- The keys of what an answer says about a result or a failure. -/
def outcomeKeys : List LooseText := ["ok", "result", "value", "degree_mode", "error", "kind"]

/-- A program goes on as `rest` in a later world, and has printed nothing until then. -/
structure GoesOn (program : Program Nat) (world : World) (rest : Program Nat) (later : World) :
    Prop where
  run : program.run world = rest.run later
  output : Event.output (program.events world) = Event.output (rest.events later)

section GoesOn

variable {α : Type} {program : Program α} {next : α → Program Nat} {command rest : Program Nat}
  {world later after : World} {value : α} {code : Nat} {members : List (LooseText × Value)}
  {stages : List Stage} {otherwise : Failure → Program Nat}

theorem GoesOn.trans {rest' : Program Nat} {later' : World} (h : GoesOn command world rest later)
    (h' : GoesOn rest later rest' later') : GoesOn command world rest' later' :=
  ⟨h.run.trans h'.run, h.output.trans h'.output⟩

theorem GoesOn.raises {fault : Fault} (h : GoesOn command world rest later)
    (hrest : Raises rest later fault) : Raises command world fault := by
  rw [Raises, h.run]
  exact hrest

theorem GoesOn.answers (h : GoesOn command world rest later)
    (hrest : Answers rest later code members after) : Answers command world code members after :=
  ⟨h.run.trans hrest.run, h.output.trans hrest.output⟩

theorem goesOn_bind (hrun : program.run world = (.ok value, later))
    (hquiet : program.PrintsNone) : GoesOn (program >>= next) world (next value) later where
  run := Program.run_bind_of_ok hrun
  output := by
    rw [Program.events_bind_of_ok hrun, Event.output_append, hquiet.output_events]
    rfl

theorem goesOn_orElse_ok (hrun : program.run world = (.ok value, later))
    (hquiet : program.PrintsNone) :
    GoesOn (orElse stages program otherwise next) world (next value) later where
  run := run_orElse_of_ok hrun
  output := by
    rw [events_orElse_of_ok hrun, Event.output_append, hquiet.output_events]
    rfl

theorem goesOn_orElse_failure {failure : Failure}
    (hrun : program.run world = (.error (.failure failure), later)) (hquiet : program.PrintsNone)
    (hstage : stages.elem failure.stage = true) :
    GoesOn (orElse stages program otherwise next) world (otherwise failure) later where
  run := run_orElse_of_failure hstage hrun
  output := by
    rw [events_orElse_of_failure hstage hrun, Event.output_append, hquiet.output_events]
    rfl

theorem raises_bind {fault : Fault} (h : (program.run world).1 = .error fault) :
    Raises (program >>= next) world fault := by
  rw [Raises, Program.run_bind_of_error (Prod.ext h rfl)]

theorem answers_printJson (world : World) (members : List (LooseText × Value)) (code : Nat) :
    ∃ after, Answers (printJson members >>= fun _ => pure code) world code members after ∧
      world.Twin after :=
  ⟨_, ⟨rfl, List.append_nil _⟩, _, _, rfl⟩

theorem answers_report (world : World) (command : Text) (failure : Failure) : ∃ after,
    Answers (report command true failure) world failure.stage.exitCode (failureJson command failure)
      after ∧ world.Twin after :=
  answers_printJson world (failureJson command failure) failure.stage.exitCode

end GoesOn

/-! ### Command lines -/

theorem goesOn_execute {words : List Text} {arguments : Arguments} {program : Program Nat}
    (hread : Arguments.read words = .ok arguments)
    (hprogram : arguments.run = if arguments.verbose then Program.showLog >>= fun _ => program
      else program) (world : World) :
    GoesOn (execute words) world program (begun arguments.verbose world) := by
  obtain ⟨hrun, hevents⟩ := events_execute hread hprogram world
  refine ⟨hrun, ?_⟩
  rw [hevents, Event.output_append]
  split <;> rfl

/-! ### Evaluations -/

section Evaluations

variable {settings : Settings} {world between : World} {angles : AngleUnit}
  {request expression : Text} {value : Double} {error : ExpressionError}

/-- An evaluation of an expression with a value goes on with the record of the value. -/
theorem goesOn_eval_ok (arguments : EvalArguments)
    (hsettings : arguments.common.settings.run world = (.ok settings, world))
    (hangles : arguments.angles.getD settings.angles = angles)
    (hwords : joinedWords arguments.words = expression)
    (hvalue : evaluate angles.isDegrees expression = .ok value) (hjson : arguments.json = true) :
    ∃ events, GoesOn (Command.eval arguments) world
      (record settings arguments.unrecorded expression (shown value) >>= fun _ =>
        printJson (evalJson expression (shown value) value angles
          (shownForm arguments.showsPostfix expression)) >>= fun _ => pure success)
      (world.showsAll events) := by
  obtain ⟨events, hrun⟩ := run_formAndValue_of_ok arguments.showsPostfix hvalue world
  refine ⟨events, (goesOn_orElse_ok hsettings (onlyReads_settings _).inquires.printsNone).trans ?_⟩
  dsimp only
  rw [hangles, hwords]
  refine (goesOn_orElse_ok hrun (only_formAndValue (fun _ => rfl) _ _ _)).trans ?_
  simp only [hjson, ↓reduceIte]
  exact ⟨rfl, rfl⟩

theorem goesOn_eval_error (arguments : EvalArguments)
    (hsettings : arguments.common.settings.run world = (.ok settings, world))
    (hangles : arguments.angles.getD settings.angles = angles)
    (hwords : joinedWords arguments.words = expression)
    (herror : evaluate angles.isDegrees expression = .error error) :
    ∃ events, GoesOn (Command.eval arguments) world (report "eval" arguments.json error.failure)
      (world.showsAll events) := by
  obtain ⟨events, hrun⟩ := run_formAndValue_of_error arguments.showsPostfix herror world
  refine ⟨events, (goesOn_orElse_ok hsettings (onlyReads_settings _).inquires.printsNone).trans ?_⟩
  dsimp only
  rw [hangles, hwords]
  exact goesOn_orElse_failure hrun (only_formAndValue (fun _ => rfl) _ _ _)
    (elem_evaluationStages error)

/-- A request that has been translated goes on with the evaluation of its expression. -/
theorem goesOn_ask_ok (arguments : AskArguments) {candidate : Candidate}
    (hwords : joinedWords arguments.words = request)
    (htranslated : (translated arguments.common request).run world =
      (.ok (settings, candidate), between))
    (hangles : arguments.angles.getD settings.angles = angles)
    (hvalue : evaluate angles.isDegrees candidate.expression = .ok value)
    (hjson : arguments.json = true) :
    ∃ events, GoesOn (Command.ask arguments) world
      (record settings arguments.unrecorded candidate.expression (shown value) >>= fun _ =>
        printJson (askJson request (shown value) value angles candidate) >>= fun _ => pure success)
      (between.showsAll events) := by
  obtain ⟨events, hrun⟩ := run_evaluated angles candidate.expression between
  rw [hvalue] at hrun
  rw [← hwords] at htranslated
  refine ⟨events, (goesOn_orElse_ok htranslated (inquires_translated _ _).printsNone).trans ?_⟩
  simp only [hwords, hjson, hangles, Bool.not_true, Bool.and_false, Bool.false_eq_true, ↓reduceIte]
  exact goesOn_orElse_ok hrun (only_evaluated (fun _ => rfl) _ _)

theorem goesOn_ask_error (arguments : AskArguments) {candidate : Candidate}
    (hwords : joinedWords arguments.words = request)
    (htranslated : (translated arguments.common request).run world =
      (.ok (settings, candidate), between))
    (hangles : arguments.angles.getD settings.angles = angles)
    (herror : evaluate angles.isDegrees candidate.expression = .error error)
    (hjson : arguments.json = true) :
    ∃ events, GoesOn (Command.ask arguments) world (report "ask" true error.failure)
      (between.showsAll events) := by
  obtain ⟨events, hrun⟩ := run_evaluated angles candidate.expression between
  rw [herror] at hrun
  rw [← hwords] at htranslated
  refine ⟨events, (goesOn_orElse_ok htranslated (inquires_translated _ _).printsNone).trans ?_⟩
  simp only [hwords, hjson, hangles, Bool.not_true, Bool.and_false, Bool.false_eq_true, ↓reduceIte]
  exact goesOn_orElse_failure hrun (only_evaluated (fun _ => rfl) _ _) (elem_evaluationStages error)

/-- In worlds that differ only in what has been asked and shown, a record ends the same way, and
leaves such worlds. -/
theorem answers_recorded {world' : World} (h : world.Twin world') (settings : Settings)
    (unrecorded : Bool) (expression result : Text) (members members' : List (LooseText × Value)) :
    (∃ fault, Raises (record settings unrecorded expression result >>= fun _ =>
        printJson members >>= fun _ => pure success) world fault ∧
      Raises (record settings unrecorded expression result >>= fun _ =>
        printJson members' >>= fun _ => pure success) world' fault) ∨
      ∃ left left', Answers (record settings unrecorded expression result >>= fun _ =>
          printJson members >>= fun _ => pure success) world success members left ∧
        Answers (record settings unrecorded expression result >>= fun _ =>
          printJson members' >>= fun _ => pure success) world' success members' left' ∧
        left.Twin left' := by
  have hkeeps := keeps_record settings unrecorded expression result
  have hsame := (Program.callsNone_of_isKeeping hkeeps).sameIn h
  cases hrecord : ((record settings unrecorded expression result).run world).1 with
  | error fault => exact .inl ⟨fault, raises_bind hrecord, raises_bind (hsame.result.trans hrecord)⟩
  | ok =>
    obtain ⟨left, hleft, htwin⟩ := answers_printJson
      ((record settings unrecorded expression result).run world).2 members success
    obtain ⟨left', hleft', htwin'⟩ := answers_printJson
      ((record settings unrecorded expression result).run world').2 members' success
    refine .inr ⟨left, left', ?_, ?_, htwin.symm.trans (hsame.after.trans htwin')⟩
    · exact (goesOn_bind (Prod.ext hrecord rfl)
        (Program.printsNone_of_isKeeping hkeeps)).answers hleft
    · exact (goesOn_bind (Prod.ext (hsame.result.trans hrecord) rfl)
        (Program.printsNone_of_isKeeping hkeeps)).answers hleft'

end Evaluations

/-! ### Spoken requests -/

section Requests

variable {settings : Settings} {candidate : Candidate} {world between : World}

theorem answers_translate (arguments : TranslateArguments) {request : Text}
    (hwords : joinedWords arguments.words = request)
    (htranslated : (translated arguments.common request).run world =
      (.ok (settings, candidate), between)) (hjson : arguments.json = true) :
    ∃ code after, Answers (Command.translate arguments) world code (translateJson request candidate)
      after := by
  obtain ⟨after, hanswers, -⟩ := answers_printJson between (translateJson request candidate)
    (if candidate.errors.isEmpty then success else Stage.translator.exitCode)
  rw [← hwords] at htranslated
  refine ⟨_, after, ((goesOn_orElse_ok htranslated (inquires_translated _ _).printsNone).trans
    ?_).answers hanswers⟩
  simp only [hwords, hjson, ↓reduceIte]
  exact ⟨rfl, rfl⟩

theorem sameMembers_failure (command command' : Text) (failure : Failure) :
    SameMembers outcomeKeys (failureJson command failure) (failureJson command' failure) := by
  intro key hkey
  simp only [outcomeKeys, List.mem_cons, List.not_mem_nil, or_false] at hkey
  rcases hkey with rfl | rfl | rfl | rfl | rfl | rfl <;> rfl

theorem member?_askJson {key : LooseText} (h : key ≠ "notice") (request result : Text)
    (value : Double) (angles : AngleUnit) (candidate : Candidate) :
    Value.member? key (askJson request result value angles candidate) = Value.member? key
      [("command", .text "ask"), ("ok", .boolean true), ("text", .text request),
        ("expression", .text candidate.expression), ("result", .text result),
        ("value", .real value), ("degree_mode", .boolean angles.isDegrees),
        ("attempts", .integer candidate.attempts)] := by
  rw [askJson]
  split
  · exact member?_concat h _ _
  · rfl

/-- What the answer to a spoken request shares with that of an evaluation and of a translation. -/
theorem sameMembers_askJson (request result : Text) (value : Double) (angles : AngleUnit)
    (candidate : Candidate) :
    SameMembers outcomeKeys
        (evalJson candidate.expression result value angles none)
        (askJson request result value angles candidate) ∧
      SameMembers ["attempts"] (translateJson request candidate)
        (askJson request result value angles candidate) := by
  constructor
  · intro key hkey
    simp only [outcomeKeys, List.mem_cons, List.not_mem_nil, or_false] at hkey
    rcases hkey with rfl | rfl | rfl | rfl | rfl | rfl
    all_goals
      rw [member?_askJson (by decide)]
      rfl
  · intro key hkey
    rw [List.mem_singleton.mp hkey, member?_askJson (by decide)]
    rfl

/-- A spoken request that was translated with this answer is answered as the evaluation of this
expression is, and what it leaves on the disk is the same. -/
def AnsweredAs (flags : Flags) (request : Text) (told : List (LooseText × Value)) (expression : Text)
    (world : World) : Prop :=
  (∃ fault, Raises (execute (evalLine flags true expression)) world fault ∧
      Raises (execute (askLine flags request)) world fault) ∨
    ∃ code evaluated asked left left',
      Answers (execute (evalLine flags true expression)) world code evaluated left ∧
      Answers (execute (askLine flags request)) world code asked left' ∧
      SameMembers outcomeKeys evaluated asked ∧
      (Value.member? "ok" asked = some (.boolean true) → SameMembers ["attempts"] told asked) ∧
      left'.disk = left.disk ∧ left'.clock = left.clock

theorem answeredAs_of_translated {flags : Flags} {request : Text}
    (htranslated : (translated flags.common.given request).run (begun flags.common.verbose world) =
      (.ok (settings, candidate), between)) :
    AnsweredAs flags request (translateJson request candidate) candidate.expression world := by
  have hask := goesOn_execute (read_askLine flags request) rfl world
  have heval := goesOn_execute (read_evalLine flags true candidate.expression) rfl world
  have hsettings := run_settings_of_translated htranslated
  have htwin : (begun flags.common.verbose world).Twin between := by
    have htwin := (inquires_translated flags.common.given request).onlyAsks.twin
      (begun flags.common.verbose world)
    rw [htranslated] at htwin
    exact htwin
  cases hvalue : evaluate (flags.angles.getD settings.angles).isDegrees candidate.expression with
  | error error =>
    obtain ⟨events, hfailed⟩ := goesOn_eval_error (flags.given.evalArguments true candidate.expression)
      hsettings rfl (joinedWords_singleton _) hvalue
    obtain ⟨events', hfailed'⟩ := goesOn_ask_error (flags.given.askArguments request)
      (joinedWords_singleton request) htranslated rfl hvalue rfl
    obtain ⟨left, hleft, hafter⟩ := answers_report
      ((begun flags.common.verbose world).showsAll events) "eval" error.failure
    obtain ⟨left', hleft', hafter'⟩ := answers_report (between.showsAll events') "ask" error.failure
    have hsame : left.Twin left' := ((World.twin_showsAll _ events).trans hafter).symm.trans
      (htwin.trans ((World.twin_showsAll between events').trans hafter'))
    refine .inr ⟨_, _, _, left, left', (heval.trans hfailed).answers hleft,
      (hask.trans hfailed').answers hleft', ?_, fun hok => ?_, hsame.alike.disk, hsame.alike.clock⟩
    · exact sameMembers_failure "eval" "ask" error.failure
    · cases hok
  | ok value =>
    obtain ⟨events, hgoes⟩ := goesOn_eval_ok (flags.given.evalArguments true candidate.expression)
      hsettings rfl (joinedWords_singleton _) hvalue rfl
    obtain ⟨events', hgoes'⟩ := goesOn_ask_ok (flags.given.askArguments request)
      (joinedWords_singleton request) htranslated rfl hvalue rfl
    have hworlds : ((begun flags.common.verbose world).showsAll events).Twin
        (between.showsAll events') :=
      (World.twin_showsAll _ events).symm.trans (htwin.trans (World.twin_showsAll between events'))
    obtain ⟨hsame, hattempts⟩ := sameMembers_askJson request (shown value) value
      (flags.angles.getD settings.angles) candidate
    rcases answers_recorded hworlds settings flags.unrecorded candidate.expression (shown value)
      (evalJson candidate.expression (shown value) value (flags.angles.getD settings.angles) none)
      (askJson request (shown value) value (flags.angles.getD settings.angles) candidate) with
      ⟨fault, hraises, hraises'⟩ | ⟨left, left', hleft, hleft', hafter⟩
    · exact .inl ⟨fault, (heval.trans hgoes).raises hraises, (hask.trans hgoes').raises hraises'⟩
    · exact .inr ⟨_, _, _, left, left', (heval.trans hgoes).answers hleft,
        (hask.trans hgoes').answers hleft', hsame, fun _ => hattempts, hafter.alike.disk,
        hafter.alike.clock⟩

/-- A spoken request is answered as its translation is, or else as the evaluation of the expression
is to which it is translated. -/
theorem ask_is_translate_then_eval (flags : Flags) (request : Text) (world : World) :
    (∃ fault, Raises (execute (translateLine flags.common request)) world fault ∧
        Raises (execute (askLine flags request)) world fault) ∨
      ∃ code told after,
        Answers (execute (translateLine flags.common request)) world code told after ∧
        ((∃ stage ∈ translatorStages, Value.member? "kind" told = some (.text stage.kind) ∧
            ∃ asked left, Answers (execute (askLine flags request)) world code asked left ∧
              SameMembers outcomeKeys told asked) ∨
          ∃ expression : Text, Value.member? "kind" told = none ∧
            Value.member? "expression" told = some (.text expression) ∧
            AnsweredAs flags request told expression world) := by
  have htranslate := goesOn_execute (read_translateLine flags.common request) rfl world
  have hask := goesOn_execute (read_askLine flags request) rfl world
  have hquiet := (inquires_translated flags.common.given (joinedWords [request])).printsNone
  cases htranslated : (translated flags.common.given request).run
      (begun flags.common.verbose world) with
  | mk result between =>
  have htranslated' := htranslated
  rw [← joinedWords_singleton request] at htranslated'
  rcases result with fault | ⟨settings, candidate⟩
  · by_cases hmet : ∃ failure, fault = .failure failure ∧ translatorStages.elem failure.stage = true
    · -- The settings or the translator fail, and both commands report that.
      obtain ⟨failure, rfl, hstage⟩ := hmet
      obtain ⟨after, htold, -⟩ := answers_report between "translate" failure
      obtain ⟨left, hasked, -⟩ := answers_report between "ask" failure
      refine .inr ⟨_, _, after, (htranslate.trans ?_).answers htold, .inl
        ⟨failure.stage, List.elem_iff.mp hstage, rfl, _, left, (hask.trans ?_).answers hasked,
          sameMembers_failure "translate" "ask" failure⟩⟩
      · exact goesOn_orElse_failure htranslated' hquiet hstage
      · exact goesOn_orElse_failure htranslated' hquiet hstage
    · have hunmet (failure : Failure) (hfault : fault = .failure failure) :
          translatorStages.elem failure.stage = false :=
        Bool.eq_false_iff.mpr fun hstage => hmet ⟨failure, hfault, hstage⟩
      refine .inl ⟨fault, htranslate.raises ?_, hask.raises ?_⟩
      · exact congrArg Prod.fst (run_orElse_of_unmet hunmet htranslated')
      · exact congrArg Prod.fst (run_orElse_of_unmet hunmet htranslated')
  · obtain ⟨code, after, htold⟩ := answers_translate
      { common := flags.common.given, json := true, words := [request] }
      (joinedWords_singleton request) htranslated rfl
    exact .inr ⟨code, _, after, htranslate.answers htold, .inr
      ⟨candidate.expression, rfl, rfl, answeredAs_of_translated htranslated⟩⟩

end Requests

end Reckoner.Command
