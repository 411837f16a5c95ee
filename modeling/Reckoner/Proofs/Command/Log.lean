import Reckoner.Proofs.Command.Settings
import Reckoner.Proofs.Command.Steps
import Reckoner.Proofs.Toolbox.Words

/-! What the journal shows after any commands and calls of tools: the results of the successful
evaluations since the journal was cleared for the last time, newest first, as far as they were to be
kept and the journal has place for them. -/

namespace Reckoner

namespace Command

/-! ### What is to be kept -/

/-- What an evaluation leaves to be kept: the expression and its shown value, or nothing if it fails
or is not to be recorded. -/
def kept (unrecorded : Bool) (angles : AngleUnit) (expression : Text) :
    List (LooseText × LooseText) :=
  match evaluate angles.isDegrees expression with
  | .ok value => if unrecorded then [] else [(expression.loose, (shown value).loose)]
  | .error _ => []

/-- What the lines of a session leave to be kept, newest first. -/
def keptOfLines (unrecorded : Bool) (angles : AngleUnit) :
    List Text → List (LooseText × LooseText)
  | [] => []
  | line :: lines =>
    match Line.ofText line with
    | .quit => []
    | .angles unit => keptOfLines unrecorded unit lines
    | .expression text => keptOfLines unrecorded angles lines ++ kept unrecorded angles text
    | .blank | .showHistory | .unknown _ => keptOfLines unrecorded angles lines

/-- What is to be kept after a command in a world, if `log` was to be kept before. -/
def Arguments.logAfter (settings : Settings) (world : World) (log : List (LooseText × LooseText)) :
    Arguments → List (LooseText × LooseText)
  | .eval arguments =>
    kept arguments.unrecorded (arguments.angles.getD settings.angles)
      (joinedWords arguments.words) ++ log
  | .ask arguments =>
    match ((translated arguments.common (joinedWords arguments.words)).run world).1 with
    | .ok (_, candidate) =>
      kept arguments.unrecorded (arguments.angles.getD settings.angles) candidate.expression ++ log
    | .error _ => log
  | .session arguments =>
    keptOfLines arguments.unrecorded (arguments.angles.getD settings.angles)
      (typedLines world.input) ++ log
  | .history arguments => if arguments.clear then [] else log
  | .translate _ | .serve _ => log

/-- Whether a command copies the journal to another file. -/
def Arguments.copies : Arguments → Bool
  | .history arguments => !arguments.clear && !(arguments.destination.getD []).isEmpty
  | _ => false

/-! ### Commands -/

section Commands

variable {settings : Settings} {m : ℕ} {place : Place} {start : Disk}
  {log : List (LooseText × LooseText)} {world : World} {common : CommonArguments}

theorem kept_append_of_ok {unrecorded : Bool} {angles : AngleUnit} {expression : Text}
    {value : Double} (h : evaluate angles.isDegrees expression = .ok value) :
    kept unrecorded angles expression ++ log =
      if unrecorded then log else (expression.loose, (shown value).loose) :: log := by
  rw [kept, h]
  cases unrecorded <;> rfl

theorem kept_append_of_error {unrecorded : Bool} {angles : AngleUnit} {expression : Text}
    {error : ExpressionError} (h : evaluate angles.isDegrees expression = .error error) :
    kept unrecorded angles expression ++ log = log := by
  rw [kept, h]
  rfl

theorem run_settings (h : Tended settings m place start log world.disk)
    (hsettings : common.Give settings place start world) :
    common.settings.run world = (.ok settings, world) :=
  Prod.ext (hsettings world.disk h.beside) ((onlyReads_settings common).run_snd world)

theorem tended_of_onlyAsks {α : Type} {program : Program α} (hprogram : program.OnlyAsks)
    (h : Tended settings m place start log world.disk) :
    Tended settings m place start log (program.run world).2.disk := by
  rw [(hprogram.alike world).disk]
  exact h

/-- The result of an evaluation is recorded before anything else is done. -/
theorem Tended.recorded (h : Tended settings m place start log world.disk) {unrecorded : Bool}
    {angles : AngleUnit} {expression : Text} {value : Double}
    (hvalue : evaluate angles.isDegrees expression = .ok value)
    (hclock : world.clock.natAbs < 10 ^ maxIntegerDigits) {rest : Program Nat}
    (hrest : rest.OnlyAsks) :
    Tended settings m place start (kept unrecorded angles expression ++ log)
      ((Command.record settings unrecorded expression (shown value) >>= fun _ =>
        rest).run world).2.disk := by
  obtain ⟨world', hrecord, hafter, -⟩ := h.record unrecorded expression (shown value) hclock
  rw [Program.run_bind_of_ok hrecord, kept_append_of_ok hvalue]
  exact tended_of_onlyAsks hrest hafter

theorem Tended.eval (h : Tended settings m place start log world.disk) {arguments : EvalArguments}
    (hsettings : arguments.common.Give settings place start world)
    (hclock : world.clock.natAbs < 10 ^ maxIntegerDigits) :
    Tended settings m place start ((Arguments.eval arguments).logAfter settings world log)
      ((eval arguments).run world).2.disk := by
  rw [Command.eval, withSettings, run_orElse_of_ok (run_settings h hsettings)]
  dsimp only
  rw [Arguments.logAfter]
  cases hvalue : evaluate (arguments.angles.getD settings.angles).isDegrees
      (joinedWords arguments.words) with
  | error error =>
    obtain ⟨events, hrun⟩ := run_formAndValue_of_error arguments.showsPostfix hvalue world
    rw [run_orElse_of_failure (elem_evaluationStages error) hrun, kept_append_of_error hvalue]
    exact tended_of_onlyAsks (onlyAsks_report _ _ _) h
  | ok value =>
    obtain ⟨events, hrun⟩ := run_formAndValue_of_ok arguments.showsPostfix hvalue world
    rw [run_orElse_of_ok hrun]
    refine @Tended.recorded _ _ _ _ _ (world.showsAll events) h _ _ _ _ hvalue hclock _ ?_
    split
    · exact Program.only_bind (onlyAsks_printJson _) fun _ => trivial
    · exact Program.only_bind (onlyAsks_printResult _ _) fun _ => trivial

theorem Tended.ask (h : Tended settings m place start log world.disk) {arguments : AskArguments}
    (hsettings : arguments.common.Give settings place start world)
    (hclock : world.clock.natAbs < 10 ^ maxIntegerDigits) :
    Tended settings m place start ((Arguments.ask arguments).logAfter settings world log)
      ((ask arguments).run world).2.disk := by
  have hsame := (inquires_translated arguments.common
    (joinedWords arguments.words)).onlyAsks.alike world
  rw [Command.ask, Arguments.logAfter]
  generalize htranslated :
    (translated arguments.common (joinedWords arguments.words)).run world = outcome at hsame ⊢
  obtain ⟨fault | ⟨given, candidate⟩, between⟩ := outcome
  · dsimp only
    rw [(twin_orElse_of_error (onlyAsks_report _ _) htranslated).alike.disk, hsame.disk]
    exact h
  · obtain rfl : settings = given := Except.ok.inj (Prod.mk.inj
      ((run_settings h hsettings).symm.trans (run_settings_of_translated htranslated))).1
    rw [run_orElse_of_ok htranslated]
    dsimp only
    -- A note about an equation may come before the evaluation.
    refine Program.run_when (fun outcome => Tended settings m place start _ outcome.2.disk)
      (fun _ => rfl) fun events => ?_
    have hbetween : Tended settings m place start log (between.showsAll events).disk := by
      rw [World.showsAll_disk, hsame.disk]
      exact h
    cases hvalue : evaluate (arguments.angles.getD settings.angles).isDegrees candidate.expression with
    | error error =>
      obtain ⟨events', hrun⟩ := run_evaluated (arguments.angles.getD settings.angles)
        candidate.expression (between.showsAll events)
      rw [hvalue] at hrun
      rw [run_orElse_of_failure (elem_evaluationStages error) hrun, kept_append_of_error hvalue]
      refine tended_of_onlyAsks ?_ hbetween
      exact Program.onlyAsks_when (Program.onlyAsks_complain _) (onlyAsks_report _ _ _)
    | ok value =>
      obtain ⟨events', hrun⟩ := run_evaluated (arguments.angles.getD settings.angles)
        candidate.expression (between.showsAll events)
      rw [hvalue] at hrun
      rw [run_orElse_of_ok hrun]
      refine @Tended.recorded _ _ _ _ _ ((between.showsAll events).showsAll events') hbetween _ _ _ _
        hvalue (hsame.clock ▸ hclock) _ ?_
      split
      · exact Program.only_bind (onlyAsks_printJson _) fun _ => trivial
      · exact Program.only_bind (Program.onlyAsks_print _) fun _ => trivial

/-! ### Sessions -/

theorem Tended.evaluateLine (h : Tended settings m place start log world.disk) (unrecorded : Bool)
    (angles : AngleUnit) (expression : Text) (hclock : world.clock.natAbs < 10 ^ maxIntegerDigits) :
    ∃ world', ((sessionFor settings unrecorded).evaluateLine angles expression).run world =
        (.ok (), world') ∧
      Tended settings m place start (kept unrecorded angles expression ++ log) world'.disk ∧
      world'.clock.natAbs ≤ world.clock.natAbs + 1 := by
  obtain ⟨events, hrun⟩ := run_evaluated angles expression world
  rw [Session.evaluateLine]
  cases hvalue : evaluate angles.isDegrees expression with
  | error error =>
    rw [hvalue] at hrun
    rw [kept_append_of_error hvalue]
    exact ⟨_, run_orElse_of_failure (elem_evaluationStages error) hrun, h, Nat.le_succ _⟩
  | ok value =>
    rw [hvalue] at hrun
    obtain ⟨world', hrecord, hafter, -, hlater⟩ := @Tended.record _ _ _ _ _
      ((world.showsAll events).shows (.printed ((shown value).loose ++ "\n"))) h unrecorded expression
      (shown value) hclock
    rw [kept_append_of_ok hvalue]
    exact ⟨world', (run_orElse_of_ok hrun).trans hrecord, hafter, hlater⟩

theorem run_printEntries (entries : List Entry) (world : World) : ∃ events,
    (printEntries entries).run world = (.ok (), world.showsAll events) := by
  induction entries generalizing world with
  | nil => exact ⟨[], by rw [World.showsAll_nil]; rfl⟩
  | cons entry entries ih =>
    obtain ⟨events, hrun⟩ := ih (world.shows (.printed (entryLine entry ++ "\n")))
    rw [World.shows_eq_showsAll, World.showsAll_showsAll] at hrun
    exact ⟨_, hrun⟩

theorem run_showHistory (h : Tended settings m place start log world.disk) (unrecorded : Bool) :
    ∃ events, ((sessionFor settings unrecorded).showHistory).run world =
      (.ok (), world.showsAll events) := by
  obtain ⟨entries, events, -, -, -, hopen⟩ := run_openJournal h
  obtain ⟨events', hprint⟩ := run_printEntries entries (world.showsAll events)
  rw [World.showsAll_showsAll] at hprint
  exact ⟨_, (Program.run_bind_of_ok hopen).trans hprint⟩

/-- A session keeps the results of its lines. -/
theorem Tended.lines (unrecorded : Bool) (lines : List Text) (angles : AngleUnit)
    (h : Tended settings m place start log world.disk)
    (hclock : world.clock.natAbs + lines.length ≤ 10 ^ maxIntegerDigits) :
    Tended settings m place start (keptOfLines unrecorded angles lines ++ log)
      (((sessionFor settings unrecorded).run angles lines).run world).2.disk := by
  induction lines generalizing angles world log with
  | nil => exact h
  | cons line lines ih =>
    rw [List.length_cons] at hclock
    -- The clock is read once a line at most, so its time can always be written down.
    have hmore : world.clock.natAbs + lines.length ≤ 10 ^ maxIntegerDigits := by omega
    have hless : world.clock.natAbs < 10 ^ maxIntegerDigits := by omega
    rw [Session.run, Program.run_bind_of_ok (show ((sessionFor settings unrecorded).prompt).run world =
      (.ok (), world.shows (.printed promptText)) from rfl), keptOfLines]
    cases Line.ofText line with
    | blank => exact @ih _ (world.shows _) angles h hmore
    | quit => exact h
    | angles unit => exact @ih _ ((world.shows _).shows _) unit h hmore
    | unknown instruction => exact @ih _ ((world.shows _).shows _) angles h hmore
    | showHistory =>
      obtain ⟨events, hshow⟩ := @run_showHistory _ _ _ _ _ (world.shows (.printed promptText)) h
        unrecorded
      dsimp only [Session.step]
      rw [Program.run_bind_of_ok (Program.run_bind_of_ok hshow)]
      exact @ih _ ((world.shows _).showsAll events) angles h hmore
    | expression text =>
      obtain ⟨world', hrun, hafter, hlater⟩ := @Tended.evaluateLine _ _ _ _ _
        (world.shows (.printed promptText)) h unrecorded angles text hless
      dsimp only [Session.step]
      rw [Program.run_bind_of_ok (Program.run_bind_of_ok hrun), List.append_assoc]
      refine ih angles hafter ?_
      have hclock' : world'.clock.natAbs ≤ world.clock.natAbs + 1 := hlater
      omega

theorem length_typedLines (input : Text) : (typedLines input).length ≤ input.length := by
  have hparts (s : Text) : (s.splitAt '\n').length ≤ s.length + 1 ∧
      ((s.splitAt '\n').getLast? ≠ some [] → (s.splitAt '\n').length ≤ s.length) := by
    induction s with
    | nil => exact ⟨Nat.le_refl _, fun h => absurd rfl h⟩
    | cons c s ih =>
      rw [Text.splitAt]
      split
      · refine ⟨Nat.succ_le_succ ih.1, fun h => Nat.succ_le_succ (ih.2 fun hlast => h ?_)⟩
        rw [List.getLast?_cons, hlast]
        rfl
      · split
        · exact ⟨Nat.succ_le_succ (Nat.zero_le _), fun _ => Nat.succ_le_succ (Nat.zero_le _)⟩
        · rename_i part parts heq
          rw [heq] at ih
          exact ⟨Nat.le_succ_of_le ih.1, fun _ => ih.1⟩
  obtain ⟨hall, hlast⟩ := hparts input
  rw [typedLines]
  split
  · rw [List.length_dropLast]
    omega
  · exact hlast ‹_›

theorem Tended.session (h : Tended settings m place start log world.disk)
    {arguments : SessionArguments} (hsettings : arguments.common.Give settings place start world)
    (hclock : world.clock.natAbs + world.input.length < 10 ^ maxIntegerDigits) :
    Tended settings m place start ((Arguments.session arguments).logAfter settings world log)
      ((session arguments).run world).2.disk := by
  have hopen : (openSession arguments).run world =
      (.ok (sessionFor settings arguments.unrecorded, arguments.angles.getD settings.angles),
        world) :=
    Program.run_bind_of_ok (run_settings h hsettings)
  rw [Command.session, run_orElse_of_ok hopen]
  dsimp only
  rw [Program.run_bind_of_ok (show Program.input.run world =
    (.ok world.input, { world with input := [] }) from rfl), Program.run_bind_pure_snd]
  refine @Tended.lines _ _ _ _ _ { world with input := [] } _ _ _ h ?_
  have hlength := length_typedLines world.input
  change world.clock.natAbs + _ ≤ _
  omega

/-! ### The journal -/

theorem Tended.history (h : Tended settings m place start log world.disk)
    {arguments : HistoryArguments} (hsettings : arguments.common.Give settings place start world)
    (hcopies : (Arguments.history arguments).copies = false) :
    Tended settings m place start ((Arguments.history arguments).logAfter settings world log)
      ((history arguments).run world).2.disk := by
  rw [Arguments.logAfter]
  by_cases hclear : arguments.clear = true
  · rw [if_pos hclear]
    obtain ⟨entries, events, -, -, -, hopen⟩ := run_openJournal h
    obtain ⟨disk, hrun, hafter⟩ := @Tended.clear _ _ _ _ _ (world.showsAll events) h entries
    have hchange : ∃ after : World, (changeHistory arguments).run world = (.ok none, after) ∧
        after.disk = disk := by
      rw [changeHistory, Program.run_bind_of_ok (run_settings h hsettings),
        Program.run_bind_of_ok hopen, if_pos hclear, Program.run_bind_of_ok hrun]
      split <;> exact ⟨_, rfl, rfl⟩
    obtain ⟨after, hchange, rfl⟩ := hchange
    rw [Command.history, run_orElse_of_ok hchange]
    exact hafter
  · rw [if_neg hclear]
    refine tended_of_onlyAsks (onlyAsks_history ?_) h
    rw [Arguments.copies, Bool.eq_false_iff.mpr hclear, Bool.not_false, Bool.true_and,
      Bool.not_eq_false'] at hcopies
    rw [HistoryArguments.lists, Bool.eq_false_iff.mpr hclear, hcopies]
    rfl

/-- A command keeps what is to be kept. -/
theorem Tended.command (h : Tended settings m place start log world.disk) {arguments : Arguments}
    (hcommon : arguments.common? = some common) (hsettings : common.Give settings place start world)
    (hcopies : arguments.copies = false)
    (hclock : world.clock.natAbs + world.input.length < 10 ^ maxIntegerDigits) :
    Tended settings m place start (arguments.logAfter settings world log)
      (arguments.run.run world).2.disk := by
  have hshown (events : List Event) : arguments.logAfter settings (world.showsAll events) log =
      arguments.logAfter settings world log := by
    cases arguments with
    | ask arguments =>
      rw [Arguments.logAfter, Arguments.logAfter, World.showsAll, Program.run_fst_of_events]
    | _ => rfl
  refine Program.run_when (fun outcome => Tended settings m place start _ outcome.2.disk)
    (fun _ => rfl) fun events => ?_
  rw [← hshown events]
  have htended : Tended settings m place start log (world.showsAll events).disk := h
  have hgive := hsettings.showsAll events
  have hless : world.clock.natAbs < 10 ^ maxIntegerDigits := by omega
  cases arguments with
  | eval arguments =>
    obtain rfl := Option.some.inj hcommon
    exact htended.eval hgive hless
  | ask arguments =>
    obtain rfl := Option.some.inj hcommon
    exact htended.ask hgive hless
  | translate arguments => exact tended_of_onlyAsks (onlyAsks_translate arguments) htended
  | history arguments =>
    obtain rfl := Option.some.inj hcommon
    exact htended.history hgive hcopies
  | session arguments =>
    obtain rfl := Option.some.inj hcommon
    exact htended.session hgive hclock
  | serve folder => cases hcommon

/-- The line that lists entries. -/
def listing (entries : List Entry) : LooseText :=
  (Json.Value.object (historyJson [("entries", .array (entries.map Entry.json))])).write .compact ++
    "\n"

/-- The command for the journal lists the latest results that were kept. -/
theorem run_history_listing (h : Tended settings m place start log world.disk)
    {arguments : HistoryArguments} {n : ℤ}
    (hsettings : arguments.common.Give settings place start world)
    (hlists : arguments.lists = true) (hjson : arguments.json = true)
    (hlimit : arguments.limit = .atMost n) :
    ∃ entries events, entries.map work = (log.take m).take n.toNat ∧
      Event.output events = listing entries ∧
      (Arguments.history arguments).run.run world = (.ok success, world.showsAll events) := by
  obtain ⟨first, hquiet, hrun⟩ : ∃ first, Event.output first = [] ∧
      (Arguments.history arguments).run.run world =
        (Command.history arguments).run (world.showsAll first) := by
    rw [Arguments.run]
    split
    · exact ⟨[.verbose], rfl, rfl⟩
    · exact ⟨[], rfl, by rw [World.showsAll_nil]⟩
  have htended : Tended settings m place start log (world.showsAll first).disk := h
  obtain ⟨entries, events, hwork, -, hsilent, hopen⟩ := run_openJournal htended
  rw [HistoryArguments.lists, Bool.and_eq_true, Bool.not_eq_true'] at hlists
  have hchange : (changeHistory arguments).run (world.showsAll first) =
      (.ok (some ⟨settings.journalPath, m, entries⟩), (world.showsAll first).showsAll events) := by
    rw [changeHistory, Program.run_bind_of_ok (run_settings htended (hsettings.showsAll first)),
      Program.run_bind_of_ok hopen, hlists.1, if_neg Bool.false_ne_true]
    split
    case h_1 => rfl
    case h_2 => rfl
    case h_3 destination hne heq =>
      rw [heq] at hlists
      exact absurd (List.isEmpty_iff.mp hlists.2) hne
  refine ⟨entries.take n.toNat, first ++ events ++ [.printed (listing (entries.take n.toNat))],
    ?_, ?_, ?_⟩
  · rw [List.map_take, hwork]
  · rw [Event.output_append, Event.output_append, hquiet, hsilent]
    exact List.append_nil _
  · rw [hrun, Command.history, run_orElse_of_ok hchange]
    dsimp only
    rw [hlimit, hjson, limited, Program.done_bind, if_pos rfl, ← World.showsAll_showsAll,
      ← World.showsAll_showsAll]
    rfl

end Commands

/-! ### Runs -/

/-- The disk and the log after any commands and calls of tools, one after the other.  The commands
have the same settings and a clock that can be written down; apart from the disk, each meets a world
of its own. -/
inductive Runs (settings : Settings) (place : Place) (start : Disk) :
    Disk → List (LooseText × LooseText) → Prop
  | start : Runs settings place start start []
  | command {world : World} {log : List (LooseText × LooseText)} {words : List Text}
      {arguments : Arguments} {common : CommonArguments}
      (hbefore : Runs settings place start world.disk log)
      (hread : Arguments.read words = .ok arguments) (hcommon : arguments.common? = some common)
      (hsettings : common.Give settings place start world) (hcopies : arguments.copies = false)
      (hclock : world.clock.natAbs + world.input.length < 10 ^ maxIntegerDigits) :
      Runs settings place start ((execute words).run world).2.disk
        (arguments.logAfter settings world log)
  | stopped {world : World} {log : List (LooseText × LooseText)} {words : List Text} {stop : Stop}
      (hbefore : Runs settings place start world.disk log)
      (hread : Arguments.read words = .error stop) :
      Runs settings place start ((execute words).run world).2.disk log
  | tool {world : World} {log : List (LooseText × LooseText)} {call : ToolCall}
      (hbefore : Runs settings place start world.disk log) :
      Runs settings place start (call.answer.run world).2.disk log

section Runs

variable {settings : Settings} {m : ℕ} {place : Place} {start disk : Disk}
  {log : List (LooseText × LooseText)} {world : World}

theorem execute_of_read {words : List Text} {arguments : Arguments}
    (h : Arguments.read words = .ok arguments) : execute words = arguments.run := by
  rw [execute, h]

theorem Runs.tended (h : Runs settings place start disk log)
    (hstart : Tended settings m place start [] start) :
    Tended settings m place start log disk := by
  induction h with
  | start => exact hstart
  | command _ hread hcommon hsettings hcopies hclock ih =>
    rw [execute_of_read hread]
    exact ih.command hcommon hsettings hcopies hclock
  | @stopped world log words stop _ hread ih =>
    rw [execute, hread]
    exact tended_of_onlyAsks (onlyAsks_stop stop) ih
  | @tool world log call _ ih => exact tended_of_onlyAsks call.onlyAsks_answer ih

/-- The log is what the command for the journal lists: under fixed settings with an enabled journal
of `m` entries, in a file that can be written and was not there at first, it shows the first `n` of
the first `m` results that were kept. -/
theorem history_lists_log (hpath : start.Writable settings.journalPath place)
    (habsent : start.read [] settings.journalPath = .error .missing)
    (henabled : settings.journalEnabled = true) (hcapacity : settings.journalCapacity = m)
    (hruns : Runs settings place start world.disk log) {words : List Text}
    {arguments : HistoryArguments} {n : ℤ}
    (hread : Arguments.read words = .ok (.history arguments))
    (hsettings : arguments.common.Give settings place start world)
    (hlists : arguments.lists = true) (hjson : arguments.json = true)
    (hlimit : arguments.limit = .atMost n) :
    ∃ entries events, entries.map work = (log.take m).take n.toNat ∧
      Event.output events = listing entries ∧
      (execute words).run world = (.ok success, world.showsAll events) := by
  have hstart : Tended settings m place start [] start := by
    refine ⟨henabled, hcapacity, hpath, .refl place start, [], ?_, ?_⟩
    · rw [habsent]
      rfl
    · rw [List.take_nil]
      rfl
  rw [execute_of_read hread]
  exact run_history_listing (hruns.tended hstart) hsettings hlists hjson hlimit

end Runs

/-! A journal with place for one entry: a sum is evaluated, a tool is asked for another value, and
the journal is shown. -/

def cappedText : Text := "[history]\npath = \"h\"\nmax_entries = 1\n"

def cappedWorld : World where
  disk := ⟨[([['c']], .file (Utf8.encode cappedText))]⟩

def cappedArguments : CommonArguments where
  file := some ['/', 'c']

def cappedSettings : Settings where
  version := 1
  root := ⟨1, []⟩
  angles := .degrees
  journalEnabled := true
  journalPath := ⟨1, [['h']]⟩
  journalCapacity := 1
  translator := ⟨.rules, Provider.rules.defaultModel, Provider.rules.defaultKeyVariable, []⟩

def sumWords : List Text := ["eval", "--config", "/c", "1+1"]

def sumCall : ToolCall := .evaluate ['2', '+', '2'] .degrees none

def listWords : List Text := ["history", "--config", "/c", "--json", "--limit", "1"]

/-- The world after the sum. -/
def sumWorld : World where
  disk := ((execute sumWords).run cappedWorld).2.disk

/-- The world after the call of the tool. -/
def callWorld : World where
  disk := (sumCall.answer.run sumWorld).2.disk

theorem requests_capped : cappedArguments.settings.requests cappedWorld =
    [.folder, .read ⟨1, [['c']]⟩, .variable "HOME", .accounts] := by cbv

theorem give_capped (world : World)
    (hworld : { world with disk := cappedWorld.disk } = cappedWorld) :
    cappedArguments.Give cappedSettings [['h']] cappedWorld.disk world := by
  refine give_of_leadsPast ?_ (by decide) fun path hpath => ?_
  · rw [hworld]
    cbv
  · rw [hworld, requests_capped] at hpath
    obtain rfl : path = ⟨1, [['c']]⟩ := by simpa using hpath
    exact ⟨rfl, [['c']], rfl, by decide⟩

theorem kept_sum : kept false .degrees ['1', '+', '1'] =
    [(Text.loose ['1', '+', '1'], Text.loose ['2'])] := by decide +kernel

theorem runs_sum : Runs cappedSettings [['h']] cappedWorld.disk callWorld.disk
    [(Text.loose ['1', '+', '1'], Text.loose ['2'])] := by
  have hread : Arguments.read sumWords =
      .ok (.eval { common := cappedArguments, words := [['1', '+', '1']] }) := rfl
  have hcommand : Runs cappedSettings [['h']] cappedWorld.disk sumWorld.disk
      (kept false .degrees ['1', '+', '1'] ++ []) :=
    .command .start hread rfl (give_capped _ rfl) rfl (Nat.pow_pos (by decide))
  rw [kept_sum] at hcommand
  exact .tool hcommand

theorem history_lists_log_sum :
    cappedWorld.disk.Writable cappedSettings.journalPath [['h']] ∧
      cappedWorld.disk.read [] cappedSettings.journalPath = .error .missing ∧
      Runs cappedSettings [['h']] cappedWorld.disk callWorld.disk
        [(Text.loose ['1', '+', '1'], Text.loose ['2'])] ∧
      ∃ entries events, entries.map work = [(Text.loose ['1', '+', '1'], Text.loose ['2'])] ∧
        Event.output events = listing entries ∧
        (execute listWords).run callWorld = (.ok success, callWorld.showsAll events) := by
  have hpath : cappedWorld.disk.Writable cappedSettings.journalPath [['h']] :=
    Disk.writable_of_locate rfl rfl (by decide)
  have hread : Arguments.read listWords =
      .ok (.history { common := cappedArguments, json := true, limit := .atMost 1 }) := rfl
  exact ⟨hpath, rfl, runs_sum, history_lists_log hpath rfl rfl rfl runs_sum hread
    (give_capped _ rfl) rfl rfl rfl⟩

end Command

end Reckoner
