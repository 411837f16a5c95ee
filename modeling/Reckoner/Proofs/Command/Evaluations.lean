import Reckoner.Proofs.Command.Lines
import Reckoner.Proofs.Command.Steps
import Reckoner.Proofs.Journal.Saving

/-! Evaluations in a session and by a command of their own.  Both show the same but for the order of
output and error output, and leave the same, whether the expression has a value or fails and whether
or not the result can be recorded. -/

namespace Reckoner.Command

open Program

variable {α β : Type}

/-! ### Records -/

/-- Whether results are recorded. -/
def records (settings : Settings) (unrecorded : Bool) : Bool :=
  settings.journalEnabled && !unrecorded

/-- Arguments load these settings, whatever is written to the journal that the settings name. -/
def CommonArguments.Load (common : CommonArguments) (settings : Settings) (world : World) : Prop :=
  ∀ disk, Disk.Amended (Disk.placeOf world.folder settings.journalPath) world.disk disk →
    (common.settings.run { world with disk }).1 = .ok settings

/-- A world in which a session or a command goes on: the settings are these whatever is recorded, the
journal can be opened if results are recorded, and the clock can be written down `left` times more. -/
structure Ready (common : CommonArguments) (settings : Settings) (unrecorded : Bool) (left : ℕ)
    (world : World) : Prop where
  loads : common.Load settings world
  opens : records settings unrecorded = true → ∃ entries,
    Journal.found (world.disk.read world.folder settings.journalPath) = .ok entries
  clock : world.clock.natAbs + left ≤ 10 ^ maxIntegerDigits

section Ready

variable {common : CommonArguments} {settings : Settings} {unrecorded : Bool} {left : ℕ}
  {world world' : World}

theorem Ready.run_settings (h : Ready common settings unrecorded left world) :
    common.settings.run world = (.ok settings, world) :=
  Prod.ext (h.loads world.disk (.refl _ _)) ((onlyReads_settings common).run_snd world)

theorem Ready.twin (h : Ready common settings unrecorded left world) (htwin : world.Twin world') :
    Ready common settings unrecorded left world' := by
  obtain ⟨events, scripts, rfl⟩ := htwin
  refine ⟨fun disk hdisk => ?_, h.opens, h.clock⟩
  rw [← h.loads disk hdisk]
  have htwin : World.Twin { world with disk } { world with disk, events, scripts } :=
    ⟨events, scripts, rfl⟩
  exact ((onlyReads_settings common).callsNone.sameIn htwin).result

theorem Ready.mono (h : Ready common settings unrecorded (left + 1) world) :
    Ready common settings unrecorded left world :=
  ⟨h.loads, h.opens, Nat.le_of_succ_le h.clock⟩

/-- A record ends well, also where the journal cannot be written. -/
theorem run_record_of_found {entries : List Entry} (hrecords : records settings unrecorded = true)
    (hfound : Journal.found (world.disk.read world.folder settings.journalPath) = .ok entries)
    (hclock : world.clock.natAbs < 10 ^ maxIntegerDigits) (expression result : Text) :
    ∃ after disk events, (record settings unrecorded expression result).run world = (.ok (), after) ∧
      after = { world with disk, clock := world.clock + 1, events } ∧
      Disk.Amended (Disk.placeOf world.folder settings.journalPath) world.disk disk ∧
      ∃ entries, Journal.found (disk.read world.folder settings.journalPath) = .ok entries := by
  rw [Command.record]
  change ∃ after disk events,
    (if records settings unrecorded then _ else _ : Program Unit).run world = _ ∧ _
  rw [if_pos hrecords]
  obtain ⟨shown, -, hopen⟩ := Journal.run_opened settings.journalPath settings.journalCapacity world
  rw [hfound] at hopen
  have hkeepable (entry : Entry) (hentry : entry ∈ upTo settings.journalCapacity entries) :
      entry.Keepable :=
    Journal.keepable_of_found hfound entry (Journal.mem_of_mem_upTo hentry)
  have hentry : Entry.Keepable ⟨expression.loose, result.loose, world.clock⟩ := by
    refine ⟨LooseText.isJoined_loose _, LooseText.isJoined_loose _, ?_⟩
    rw [Entry.length_ofNat_le_iff (by decide)]
    exact hclock
  obtain ⟨recorded, disk, hrecord, hresult, hamended, hafter⟩ :=
    @Journal.record_or_unwritable ⟨settings.journalPath, settings.journalCapacity,
      upTo settings.journalCapacity entries⟩ (world.showsAll shown) _ _ _ hkeepable hentry hfound
  rcases hresult with ⟨value, rfl⟩ | rfl
  · exact ⟨_, disk, _, run_orElse_of_ok ((run_bind_of_ok hopen).trans (run_bind_of_ok hrecord)), rfl,
      hamended, hafter⟩
  · exact ⟨_, disk, _, run_orElse_of_failure rfl ((run_bind_of_ok hopen).trans
      (run_bind_of_error hrecord)), rfl, hamended, hafter⟩

theorem run_record_of_not_records (hrecords : records settings unrecorded = false)
    (expression result : Text) (world : World) :
    (record settings unrecorded expression result).run world = (.ok (), world) := by
  rw [Command.record]
  change (if records settings unrecorded then _ else _ : Program Unit).run world = _
  rw [hrecords]
  rfl

/-- A session or a command goes on after a record. -/
theorem Ready.record (h : Ready common settings unrecorded (left + 1) world)
    (expression result : Text) : ∃ after,
      (record settings unrecorded expression result).run world = (.ok (), after) ∧
        Ready common settings unrecorded left after := by
  cases hrecords : records settings unrecorded with
  | false => exact ⟨world, run_record_of_not_records hrecords expression result world, h.mono⟩
  | true =>
    obtain ⟨entries, hfound⟩ := h.opens hrecords
    have hclock : world.clock.natAbs < 10 ^ maxIntegerDigits :=
      Nat.lt_of_lt_of_le (Nat.lt_add_of_pos_right (Nat.succ_pos left)) h.clock
    obtain ⟨_, disk, events, hrun, rfl, hamended, hafter⟩ :=
      run_record_of_found hrecords hfound hclock expression result
    refine ⟨_, hrun, fun disk' hdisk' => ?_, fun _ => hafter, ?_⟩
    · exact ((onlyReads_settings common).run_fst_of_clock { world with disk := disk' } _ _ _).trans
        (h.loads disk' (hamended.trans hdisk'))
    · have := Int.natAbs_add_le world.clock 1
      have := h.clock
      change (world.clock + 1).natAbs + left ≤ _
      omega

/-- A record ends where the journal cannot be opened. -/
theorem run_record_of_found_error {crash : Crash} (hrecords : records settings unrecorded = true)
    (hfound : Journal.found (world.disk.read world.folder settings.journalPath) = .error crash)
    (expression result : Text) :
    ((record settings unrecorded expression result).run world).1 = .error (.crash crash) := by
  obtain ⟨shown, -, hopen⟩ :=
    Journal.run_opened settings.journalPath settings.journalCapacity world
  rw [hfound] at hopen
  have hunmet (failure : Failure) (h : Fault.crash crash = .failure failure) :
      [Stage.history].elem failure.stage = false := nomatch h
  rw [Command.record]
  change ((if records settings unrecorded then _ else _ : Program Unit).run world).1 = _
  rw [if_pos hrecords]
  exact congrArg Prod.fst (run_orElse_of_unmet hunmet (run_bind_of_error hopen))

end Ready

/-! ### Evaluations -/

section Evaluations

variable {stages : List Stage} {program : Program α} {otherwise : Failure → Program β}
  {next : α → Program β} {world between after : World} {result : β} {events more : List Event}
  {settings : Settings} {angles : AngleUnit} {expression : Text} {value : Double}
  {error : ExpressionError}

theorem ends_orElse_of_ok {value : α} (h : Ends program world value events between)
    (hnext : Ends (next value) between result more after) :
    Ends (orElse stages program otherwise next) world result (events ++ more) after :=
  ⟨(run_orElse_of_ok h.run).trans hnext.run, by
    rw [events_orElse_of_ok h.run, h.events, hnext.events]⟩

theorem ends_orElse_of_failure {failure : Failure} (hstage : stages.elem failure.stage = true)
    (h : program.run world = (.error (.failure failure), world.showsAll events))
    (hotherwise : Ends (otherwise failure) (world.showsAll events) result more after) :
    Ends (orElse stages program otherwise next) world result (events ++ more) after :=
  ⟨(run_orElse_of_failure hstage h).trans hotherwise.run, by
    rw [events_orElse_of_failure hstage h, hotherwise.events,
      run_snd_of_showsAll (congrArg Prod.snd h)]⟩

/-- An evaluation in a session whose expression has a value prints the value and records it. -/
theorem ends_evaluateLine_of_ok {logs kept : List Event} {unrecorded : Bool}
    (hlogs : Ends (evaluated angles expression) world value logs between)
    (hrecord : Ends (record settings unrecorded expression (shown value))
      (between.shows (.printed ((shown value).loose ++ "\n"))) () kept after) :
    Ends ((sessionFor settings unrecorded).evaluateLine angles expression) world ()
      (logs ++ ([.printed ((shown value).loose ++ "\n")] ++ kept)) after :=
  ends_orElse_of_ok hlogs ((ends_emit _ between).bind hrecord)

/-- The lines of a result, after that of the postfix form if it is shown. -/
def formLines (form : Option Text) (result : Text) : List LooseText :=
  match form with
  | some form => ["rpn: " ++ form, result]
  | none => [result]

/-- The lines in which a command shows the result of an evaluation: as an object, or as a text. -/
def resultLines (arguments : EvalArguments) (angles : AngleUnit) (value : Double) : List LooseText :=
  let expression := joinedWords arguments.words
  let form := shownForm arguments.showsPostfix expression
  if arguments.json then
    [(Json.Value.object (evalJson expression (shown value) value angles form)).write .compact]
  else formLines form (shown value)

/-- The events in which lines are printed. -/
def printedLines (lines : List LooseText) : List Event :=
  lines.map fun line => .printed (line ++ "\n")

theorem ends_formAndValue {logs : List Event} (showsPostfix : Bool)
    (hvalue : evaluate angles.isDegrees expression = .ok value)
    (hlogs : Ends (evaluated angles expression) world value logs between) :
    Ends (formAndValue showsPostfix angles expression) world
      (shownForm showsPostfix expression, value) logs between := by
  cases showsPostfix with
  | false => exact hlogs.bind_pure _
  | true =>
    obtain ⟨form, hform, -⟩ := bind_eq_ok hvalue
    rw [formAndValue, if_pos rfl, shownForm, if_pos rfl, hform, ofExpression, Program.done_bind]
    exact hlogs.bind_pure _

theorem ends_printResult (form : Option Text) (result : Text) (world : World) :
    Ends (printResult form result) world () (printedLines (formLines form result))
      (world.showsAll (printedLines (formLines form result))) := by
  cases form with
  | none => exact ends_emit _ world
  | some form =>
    refine ⟨?_, rfl⟩
    change (Except.ok (), (world.showsAll [_]).showsAll [_]) = _
    rw [World.showsAll_showsAll]
    rfl

/-- The command for an expression that has a value records the value before it prints it. -/
theorem ends_eval_of_ok {arguments : EvalArguments} {logs kept : List Event}
    (hsettings : Ends arguments.common.settings world settings [] world)
    (hangles : arguments.angles.getD settings.angles = angles)
    (hwords : joinedWords arguments.words = expression)
    (hvalue : evaluate angles.isDegrees expression = .ok value)
    (hlogs : Ends (evaluated angles expression) world value logs between)
    (hrecord : Ends (record settings arguments.unrecorded expression (shown value)) between () kept
      after) :
    Ends (Command.eval arguments) world success
      (logs ++ (kept ++ printedLines (resultLines arguments angles value)))
      (after.showsAll (printedLines (resultLines arguments angles value))) := by
  rw [← List.nil_append (logs ++ _)]
  refine ends_orElse_of_ok hsettings ?_
  dsimp only
  rw [resultLines, hwords, hangles]
  refine ends_orElse_of_ok (ends_formAndValue arguments.showsPostfix hvalue hlogs)
    (hrecord.bind ?_)
  dsimp only
  cases arguments.json with
  | true => exact (ends_emit _ after).bind_pure fun _ => success
  | false => exact (ends_printResult _ _ after).bind_pure fun _ => success

/-- Both report a failure of the evaluation. -/
theorem ends_evaluateLine_of_error {logs : List Event} {unrecorded : Bool}
    (hlogs : (evaluated angles expression).run world =
      (.error (.failure error.failure), world.showsAll logs)) :
    Ends ((sessionFor settings unrecorded).evaluateLine angles expression) world ()
      (logs ++ [.complained (error.failure.report ++ ['\n'])])
      ((world.showsAll logs).shows (.complained (error.failure.report ++ ['\n']))) :=
  ends_orElse_of_failure (elem_evaluationStages error) hlogs (ends_emit _ _)

theorem ends_eval_of_error {arguments : EvalArguments} {logs : List Event}
    (hsettings : Ends arguments.common.settings world settings [] world)
    (hangles : arguments.angles = some angles) (hjson : arguments.json = false)
    (hform : arguments.showsPostfix = false) (hwords : joinedWords arguments.words = expression)
    (hlogs : (evaluated angles expression).run world =
      (.error (.failure error.failure), world.showsAll logs)) :
    Ends (Command.eval arguments) world error.failure.stage.exitCode
      (logs ++ [.complained (error.failure.report ++ ['\n'])])
      ((world.showsAll logs).shows (.complained (error.failure.report ++ ['\n']))) := by
  have hpair : (formAndValue false angles expression).run world =
      (.error (.failure error.failure), world.showsAll logs) := run_bind_of_error hlogs
  rw [← List.nil_append (logs ++ _)]
  refine ends_orElse_of_ok hsettings ?_
  dsimp only
  rw [hwords, hangles, hjson, hform]
  exact ends_orElse_of_failure (elem_evaluationStages error) hpair
    ((ends_emit _ _).bind (ends_pure _ _))

theorem callsNone_eval (arguments : EvalArguments) : (Command.eval arguments).CallsNone := by
  have hreport (failure : Failure) : (report "eval" arguments.json failure).CallsNone := by
    rw [report]
    split
    · exact only_bind (callsNone_emit _) fun _ => trivial
    · exact only_bind (callsNone_emit _) fun _ => trivial
  refine only_orElse (onlyReads_settings _).callsNone hreport fun settings => ?_
  refine only_orElse (only_formAndValue (fun _ => (callsNone_emit _).1) _ _ _) hreport
    fun formed => ?_
  refine only_bind (callsNone_of_isKeeping (keeps_record _ _ _ _)) fun _ => ?_
  dsimp only
  split
  · exact only_bind (callsNone_emit _) fun _ => trivial
  · refine only_bind ?_ fun _ => trivial
    cases formed.1 with
    | none => exact callsNone_emit _
    | some form => exact only_bind (callsNone_emit _) fun _ => callsNone_emit _

theorem callsNone_evalLine (flags : Flags) (json : Bool) (expression : Text) :
    (execute (evalLine flags json expression)).CallsNone := by
  rw [execute, read_evalLine]
  dsimp only
  rw [Arguments.run]
  split
  · exact only_bind (callsNone_emit _) fun _ => callsNone_eval _
  · exact callsNone_eval _

/-- The command line does what the command does, after its request for a full log. -/
theorem ends_evalLine {flags : Flags} {json : Bool} {code : Nat}
    (h : Ends (Command.eval (flags.given.evalArguments json expression)) world code events after) :
    ∃ after', Ends (execute (evalLine flags json expression)) world code
        ((if flags.common.verbose then [.verbose] else []) ++ events) after' ∧
      after.Twin after' := by
  obtain ⟨after', hends, htwin⟩ := h.twin (callsNone_eval _) (twin_begun flags.common.verbose world)
  obtain ⟨hrun, hevents⟩ := events_execute (read_evalLine flags json expression) rfl world
  exact ⟨after', ⟨hrun.trans hends.run, hevents.trans (congrArg (_ ++ ·) hends.events)⟩, htwin⟩

theorem output_begun (verbose : Bool) (events : List Event) :
    Event.output ((if verbose then [.verbose] else []) ++ events) = Event.output events := by
  cases verbose <;> rfl

theorem errorOutput_begun (verbose : Bool) (events : List Event) :
    Event.errorOutput false ((if verbose then [.verbose] else []) ++ events) =
      Event.errorOutput verbose events := by
  cases verbose <;> rfl

/-- An evaluation in a session and the command line for it end, show the same and leave the same but
for the log, and the session is ready for what is left. -/
def SameEvaluation (flags : Flags) (settings : Settings) (angles : AngleUnit) (expression : Text)
    (left : ℕ) (world : World) : Prop :=
  ∃ code events events' after after',
    Ends ((sessionFor settings flags.unrecorded).evaluateLine angles expression) world () events
      after ∧
    Ends (execute (evalLine flags false expression)) world code events' after' ∧
    Event.verbose ∉ events ∧ Event.output events' = Event.output events ∧
    Event.errorOutput false events' = Event.errorOutput flags.common.verbose events ∧
    after.Twin after' ∧ Ready flags.common.given settings flags.unrecorded left after

theorem Ready.ends_settings {left : ℕ} {arguments : CommonArguments} {unrecorded : Bool}
    (h : Ready arguments settings unrecorded left world) :
    Ends arguments.settings world settings [] world :=
  ⟨h.run_settings, (onlyReads_settings _).events world⟩

section Same

variable {flags : Flags} {logs : List Event} {left : ℕ}

theorem Ready.evaluation_of_error
    (h : Ready flags.common.given settings flags.unrecorded (left + 1) world)
    (hangles : flags.angles = some angles)
    (hlogs : (evaluated angles expression).run world =
      (.error (.failure error.failure), world.showsAll logs)) (hfull : Event.verbose ∉ logs) :
    SameEvaluation flags settings angles expression left world := by
  have hcommand : Ends (Command.eval (flags.given.evalArguments false expression)) world _ _ _ :=
    ends_eval_of_error h.ends_settings hangles rfl rfl (joinedWords_singleton expression) hlogs
  obtain ⟨after', hcommand, htwin⟩ := ends_evalLine hcommand
  refine ⟨_, _, _, _, _, ends_evaluateLine_of_error hlogs, hcommand, ?_, output_begun _ _,
    errorOutput_begun _ _, htwin, h.mono.twin ((world.twin_showsAll logs).trans
      (World.twin_showsAll _ [_]))⟩
  simpa using hfull

/-- A session records a result after it has been printed, and the command records it before. -/
theorem Ready.evaluation_of_ok {value : Double}
    (h : Ready flags.common.given settings flags.unrecorded (left + 1) world)
    (hangles : flags.angles = some angles)
    (hvalue : evaluate angles.isDegrees expression = .ok value)
    (hlogs : (evaluated angles expression).run world = (.ok value, world.showsAll logs))
    (hfull : Event.verbose ∉ logs) :
    SameEvaluation flags settings angles expression left world := by
  obtain ⟨recorded, hrecord, hready⟩ :=
    (h.twin (world.twin_showsAll logs)).record expression (shown value)
  have hkeeps := keeps_record settings flags.unrecorded expression (shown value)
  have hbefore : Ends (Command.record settings flags.unrecorded expression (shown value))
      (world.showsAll logs) () _ recorded := ⟨hrecord, rfl⟩
  obtain ⟨after, hafter, htwin⟩ := hbefore.twin (callsNone_of_isKeeping hkeeps)
    (World.twin_showsAll _ [.printed ((shown value).loose ++ "\n")])
  have hgiven : flags.angles.getD settings.angles = angles := by rw [hangles, Option.getD_some]
  have hcommand : Ends (Command.eval (flags.given.evalArguments false expression)) world _ _ _ :=
    ends_eval_of_ok h.ends_settings hgiven (joinedWords_singleton expression) hvalue
      (ends_of_showsAll hlogs) hbefore
  obtain ⟨after', hcommand, htwin'⟩ := ends_evalLine hcommand
  have hnever : KeepsLog (Command.record settings flags.unrecorded expression (shown value)) := by
    refine hkeeps.mono fun request hrequest => ?_
    rintro rfl
    cases hrequest
  have hnone := hnever.verbose_not_mem (world.showsAll logs)
  have hprinted : Event.verbose ∉ [Event.printed ((shown value).loose ++ "\n")] := by simp
  refine ⟨_, _, _, _, _, ends_evaluateLine_of_ok (ends_of_showsAll hlogs) hafter, hcommand, ?_, ?_,
    ?_, htwin.symm.trans ((World.twin_showsAll _ [_]).trans htwin'), hready.twin htwin⟩
  · simpa using ⟨hfull, hnone⟩
  · rw [output_begun, Event.output_append, Event.output_append, Event.output_append,
      Event.output_append, (printsNone_of_isKeeping hkeeps).output_events]
    rw [List.append_nil]
    rfl
  · rw [errorOutput_begun, Event.errorOutput_append hfull, Event.errorOutput_append hfull,
      Event.errorOutput_append hnone, Event.errorOutput_append hprinted]
    exact congrArg _ (List.append_nil _)

/-- An evaluation in a session shows and leaves what the command line for it does. -/
theorem Ready.evaluation (flags : Flags)
    (h : Ready flags.common.given settings flags.unrecorded (left + 1) world)
    (hangles : flags.angles = some angles) (expression : Text) :
    SameEvaluation flags settings angles expression left world := by
  obtain ⟨logs, hlogs⟩ := run_evaluated angles expression world
  have hsame : (evaluated angles expression).events world = logs :=
    run_snd_of_showsAll (congrArg Prod.snd hlogs)
  have hfull : Event.verbose ∉ logs :=
    hsame ▸ KeepsLog.verbose_not_mem (only_evaluated (fun _ => nofun) _ _) world
  cases hvalue : evaluate angles.isDegrees expression with
  | error error =>
    rw [hvalue] at hlogs
    exact h.evaluation_of_error hangles hlogs hfull
  | ok value =>
    rw [hvalue] at hlogs
    exact h.evaluation_of_ok hangles hvalue hlogs hfull

end Same

end Evaluations

/-! ### Lines that fail -/

/-- An evaluation that fails leaves nothing but what it shows. -/
theorem twin_eval_of_error {arguments : EvalArguments} {angles : AngleUnit} {expression : Text}
    {error : ExpressionError} (hangles : arguments.angles = some angles)
    (hwords : joinedWords arguments.words = expression)
    (herror : evaluate angles.isDegrees expression = .error error) (world : World) :
    world.Twin ((Command.eval arguments).run world).2 := by
  rw [Command.eval, withSettings]
  have hsame := (onlyReads_settings arguments.common).run_snd world
  cases hsettings : arguments.common.settings.run world with
  | mk result between =>
  rw [hsettings] at hsame
  obtain rfl : between = world := hsame
  cases result with
  | error fault => exact twin_orElse_of_error (onlyAsks_report _ _) hsettings
  | ok settings =>
    rw [run_orElse_of_ok hsettings]
    dsimp only
    rw [hangles, hwords]
    obtain ⟨logs, hlogs⟩ := run_formAndValue_of_error arguments.showsPostfix herror between
    exact (between.twin_showsAll logs).trans (twin_orElse_of_error (onlyAsks_report _ _) hlogs)

theorem twin_evalLine_of_error {flags : Flags} {angles : AngleUnit} {expression : Text}
    {error : ExpressionError} (hangles : flags.angles = some angles)
    (herror : evaluate angles.isDegrees expression = .error error) (json : Bool) (world : World) :
    world.Twin ((execute (evalLine flags json expression)).run world).2 := by
  obtain ⟨hrun, -⟩ := events_execute (read_evalLine flags json expression) rfl world
  rw [hrun]
  exact (twin_begun _ world).trans
    (twin_eval_of_error hangles (joinedWords_singleton expression) herror _)

end Reckoner.Command
