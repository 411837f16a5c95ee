import Reckoner.Proofs.Command.Evaluations
import Reckoner.Proofs.Command.Log

/-! Sessions as series of commands.  A session shows and leaves what evaluations by commands of their
own do, one for each expression that is typed, with the unit of angles that was set last; only the
prompts, the unit when it is set, and complaints about unknown instructions come in addition. -/

namespace Reckoner.Command

open Program

/-! ### What a session consists of -/

/-- A part of a session: something that is shown, or the evaluation of an expression. -/
inductive Act
  | aside (event : Event)
  | evaluation (angles : AngleUnit) (expression : Text)

/-- The parts of a session of these lines, none of which asks for the journal.  A prompt comes before
each line and before the end of what is typed. -/
def acts (angles : AngleUnit) : List Text → List Act
  | [] => [.aside (.printed "> ")]
  | line :: lines =>
    let line := Text.stripped line
    .aside (.printed "> ") ::
      if line = [] then acts angles lines
      else if line = ":q".toList ∨ line = ":quit".toList ∨ line = ":exit".toList then []
      else if line = ":deg".toList then .aside (.printed "mode: deg\n") :: acts .degrees lines
      else if line = ":rad".toList then .aside (.printed "mode: rad\n") :: acts .radians lines
      else if line.head? = some ':' then
        .aside (.complained ("error: unknown command " ++ Text.quoted line ++ "\n")) ::
          acts angles lines
      else .evaluation angles line :: acts angles lines

/-- The parts of a session one after the other: each evaluation is done by a command with a process
of its own, in the world that the one before it leaves.  Beside the parts stand what is printed, what
is printed where errors are, and the world at the end. -/
inductive Played (common : CommonArguments) (unrecorded : Bool) :
    World → List Act → LooseText → Text → World → Prop
  | done (world : World) : Played common unrecorded world [] [] [] world
  | aside {world last : World} {acts : List Act} {out : LooseText} {err : Text} (event : Event)
      (hrest : Played common unrecorded world acts out err last) :
      Played common unrecorded world (.aside event :: acts) (Event.output [event] ++ out)
        (Event.errorOutput false [event] ++ err) last
  | evaluation {world between last : World} {acts : List Act} {out : LooseText} {err : Text}
      {angles : AngleUnit} {expression : Text} {code : Nat} {events : List Event}
      (hcommand : Ends (execute (evalLine ⟨common, some angles, unrecorded⟩ false expression)) world
        code events between)
      (hrest : Played common unrecorded between acts out err last) :
      Played common unrecorded world (.evaluation angles expression :: acts)
        (Event.output events ++ out) (Event.errorOutput false events ++ err) last

/-- What a program without a failure shows, and the disk and the clock that it leaves. -/
def Shows (program : Program Nat) (world : World) (inFull : Bool) (out : LooseText) (err : Text)
    (last : World) : Prop :=
  ∃ events after, Ends program world success events after ∧ Event.output events = out ∧
    Event.errorOutput inFull events = err ∧ after.disk = last.disk ∧ after.clock = last.clock

section Acts

variable {line : Text}

/-- What a line asks for is decided as the parts of the session are. -/
theorem acts_cons (hline : Text.stripped line ≠ ":history".toList) (angles : AngleUnit)
    (lines : List Text) : acts angles (line :: lines) = .aside (.printed promptText.loose) ::
      match Line.ofText line with
      | .blank | .showHistory => acts angles lines
      | .quit => []
      | .angles unit => .aside (.printed ("mode: " ++ unit.name ++ "\n")) :: acts unit lines
      | .unknown instruction =>
        .aside (.complained ("error: unknown command " ++ Text.quoted instruction ++ "\n")) ::
          acts angles lines
      | .expression text => .evaluation angles text :: acts angles lines := by
  rw [acts, Line.ofText, Line.ofStripped]
  generalize Text.stripped line = text at hline ⊢
  refine congrArg _ ?_
  by_cases hempty : text = []
  · rw [if_pos hempty, if_pos (List.isEmpty_iff.mpr hempty)]
  · rw [if_neg hempty, if_neg (mt List.isEmpty_iff.mp hempty)]
    by_cases hquit : text = ":q".toList ∨ text = ":quit".toList ∨ text = ":exit".toList
    · rw [if_pos hquit, if_pos (List.elem_iff.mpr (by simpa using hquit))]
    · rw [if_neg hquit, if_neg (mt List.elem_iff.mp (by simpa using hquit))]
      by_cases hdegrees : text = ":deg".toList
      · rw [hdegrees]
        rfl
      · by_cases hradians : text = ":rad".toList
        · rw [hradians]
          rfl
        · have hnone : (AngleUnit.all.find? fun unit => ':' :: unit.name == text) = none := by
            rw [List.find?_eq_none]
            intro unit _ hname
            rw [← beq_iff_eq.mp hname] at hdegrees hradians
            cases unit with
            | degrees => exact hdegrees rfl
            | radians => exact hradians rfl
          rw [if_neg hdegrees, if_neg hradians, hnone]
          dsimp only
          rw [if_neg hline]
          split <;> rfl

theorem ofText_ne_showHistory (hline : Text.stripped line ≠ ":history".toList) :
    Line.ofText line ≠ .showHistory := by
  rw [Line.ofText, Line.ofStripped]
  split
  · exact nofun
  · split
    · exact nofun
    · split
      · exact nofun
      · split <;> exact nofun

end Acts

/-! ### Sessions -/

section Sessions

variable {common : CommonArguments} {unrecorded : Bool} {settings : Settings} {left : ℕ}
  {parts : List Act} {world between : World} {γ : Type} {first : Program γ} {next : γ → Program Unit}
  {value : γ}

/-- A program shows and leaves what the parts of a session do that are played in such a world. -/
def Enacts (common : CommonArguments) (unrecorded : Bool) (program : Program Unit) (parts : List Act)
    (world : World) : Prop :=
  ∀ world', world.Twin world' → ∃ events after out err last,
    Ends program world () events after ∧ Played common unrecorded world' parts out err last ∧
      Event.output events = out ∧ Event.errorOutput common.verbose events = err ∧ after.Twin last

theorem enacts_done (world : World) : Enacts common unrecorded (pure ()) [] world :=
  fun world' htwin => ⟨_, _, _, _, _, ends_pure () world, .done world', rfl, rfl, htwin⟩

/-- Something other than a log record is shown. -/
theorem Enacts.aside {event : Event} (hfirst : Ends first world value [event] (world.shows event))
    (hevent : event ≠ .verbose) (hsame : Event.errorOutput common.verbose [event] =
      Event.errorOutput false [event])
    (hnext : Enacts common unrecorded (next value) parts (world.shows event)) :
    Enacts common unrecorded (first >>= next) (.aside event :: parts) world := by
  intro world' htwin
  obtain ⟨events, after, out, err, last, hends, hplayed, hout, herr, hlast⟩ :=
    hnext world' ((World.twin_showsAll world [event]).symm.trans htwin)
  refine ⟨_, after, _, _, last, hfirst.bind hends, .aside event hplayed, ?_, ?_, hlast⟩
  · rw [Event.output_append, hout]
  · rw [Event.errorOutput_append (by simpa using hevent.symm), hsame, herr]

/-- An expression is evaluated. -/
theorem Ready.enacts (h : Ready common.given settings unrecorded (left + 1) world)
    (angles : AngleUnit) (expression : Text) (hnext : ∀ after,
      Ready common.given settings unrecorded left after →
        Enacts common unrecorded (next value) parts after) :
    Enacts common unrecorded (((sessionFor settings unrecorded).evaluateLine angles expression >>=
      fun _ => pure value) >>= next) (.evaluation angles expression :: parts) world := by
  intro world' htwin
  obtain ⟨code, events, events', between, between', hline, hcommand, hfull, hout, herr, hbetween,
    hready⟩ := Ready.evaluation ⟨common, some angles, unrecorded⟩ h rfl expression
  obtain ⟨again, hagain, hsame⟩ := hcommand.twin (callsNone_evalLine _ _ _) htwin
  obtain ⟨more, after, out, err, last, hends, hplayed, hmore, hmoreErr, hlast⟩ :=
    hnext between hready again (hbetween.trans hsame)
  refine ⟨_, after, _, _, last, (hline.bind (ends_pure value between)).bind hends,
    .evaluation hagain hplayed, ?_, ?_, hlast⟩
  · rw [List.append_nil, Event.output_append, hout, hmore]
  · rw [List.append_nil, Event.errorOutput_append hfull, herr, hmoreErr]

/-- A session is the series of its parts. -/
theorem Ready.lines (lines : List Text) (angles : AngleUnit)
    (h : Ready common.given settings unrecorded lines.length world)
    (hlines : ∀ line ∈ lines, Text.stripped line ≠ ":history".toList) :
    Enacts common unrecorded ((sessionFor settings unrecorded).run angles lines) (acts angles lines)
      world := by
  induction lines generalizing angles world with
  | nil =>
    rw [Session.run, ← bind_pure (Session.prompt _)]
    exact Enacts.aside (ends_emit _ world) Event.noConfusion rfl (enacts_done _)
  | cons line lines ih =>
    obtain ⟨hline, hlines⟩ := List.forall_mem_cons.mp hlines
    have hshown : Ready common.given settings unrecorded (lines.length + 1)
        (world.shows (.printed promptText)) := h.twin (World.twin_showsAll world [_])
    rw [Session.run, acts_cons hline]
    refine Enacts.aside (ends_emit _ world) Event.noConfusion rfl ?_
    cases hof : Line.ofText line with
    | blank => exact ih angles hshown.mono hlines
    | quit => exact enacts_done _
    | showHistory => exact absurd hof (ofText_ne_showHistory hline)
    | angles unit =>
      exact Enacts.aside ((ends_emit _ _).bind (ends_pure (some unit) _)) Event.noConfusion rfl
        (ih unit (hshown.mono.twin (World.twin_showsAll _ [_])) hlines)
    | unknown instruction =>
      exact Enacts.aside ((ends_emit _ _).bind (ends_pure (some angles) _)) Event.noConfusion rfl
        (ih angles (hshown.mono.twin (World.twin_showsAll _ [_])) hlines)
    | expression text =>
      exact hshown.enacts angles text fun after hafter => ih angles hafter hlines

/-- The parts of a session do the same in worlds that differ only in what has been shown. -/
theorem Played.twin {world' last : World} {out : LooseText} {err : Text}
    (h : Played common unrecorded world parts out err last) (htwin : world.Twin world') :
    ∃ last', Played common unrecorded world' parts out err last' ∧ last.Twin last' := by
  induction h generalizing world' with
  | done => exact ⟨world', .done world', htwin⟩
  | aside event _ ih =>
    obtain ⟨last', hplayed, hlast⟩ := ih htwin
    exact ⟨last', .aside event hplayed, hlast⟩
  | evaluation hcommand _ ih =>
    obtain ⟨between', hcommand', hbetween⟩ := hcommand.twin (callsNone_evalLine _ _ _) htwin
    obtain ⟨last', hplayed, hlast⟩ := ih hbetween
    exact ⟨last', .evaluation hcommand' hplayed, hlast⟩

/-- Where the journal cannot be opened, a session in which results are recorded ends at its first
value. -/
theorem run_session_of_found_error {crash : Crash} {angles : AngleUnit} {line expression : Text}
    {value : Double} (hrecords : records settings unrecorded = true)
    (hfound : Journal.found (world.disk.read world.folder settings.journalPath) = .error crash)
    (hline : Line.ofText line = .expression expression)
    (hvalue : evaluate angles.isDegrees expression = .ok value) (lines : List Text) :
    (((sessionFor settings unrecorded).run angles (line :: lines)).run world).1 =
      .error (.crash crash) := by
  obtain ⟨logs, hlogs⟩ := run_evaluated angles expression (world.shows (.printed promptText))
  rw [hvalue] at hlogs
  -- The value is printed before the journal is opened to record it.
  have hrecord := @run_record_of_found_error settings unrecorded
    (((world.shows (.printed promptText)).showsAll logs).shows
      (.printed ((shown value).loose ++ "\n"))) _ hrecords hfound expression (shown value)
  have hends : (((sessionFor settings unrecorded).evaluateLine angles expression).run
      (world.shows (.printed promptText))).1 = .error (.crash crash) := by
    rw [Session.evaluateLine, run_orElse_of_ok hlogs]
    exact hrecord
  rw [Session.run, hline]
  exact congrArg Prod.fst (run_bind_of_error (run_bind_of_error (Prod.ext hends rfl)))

/-! ### Sessions and commands -/

theorem Ready.openSession {flags : Flags}
    (h : Ready flags.common.given settings flags.unrecorded left world) (input : Text) :
    Ends (openSession flags.given.sessionArguments) { world with input }
      (sessionFor settings flags.unrecorded, flags.angles.getD settings.angles) []
      { world with input } := by
  have hsettings : Ends flags.common.given.settings { world with input } settings []
      { world with input } := by
    have hreads := onlyReads_settings flags.common.given
    refine ⟨Prod.ext ?_ (hreads.run_snd _), hreads.events _⟩
    exact (hreads.run_fst_of_clock world world.clock input world.events).trans
      (by rw [h.run_settings])
  exact hsettings.bind (ends_pure _ _)

theorem callsNone_session (settings : Settings) (unrecorded : Bool) (lines : List Text)
    (angles : AngleUnit) : ((sessionFor settings unrecorded).run angles lines).CallsNone := by
  have hemit (event : Event) : ∀ call, Request.emit event ≠ .call call := (callsNone_emit event).1
  apply only_session hemit
  · intro expression result
    exact callsNone_of_isKeeping (keeps_record _ _ _ _)
  · apply only_bind (only_openJournal (fun _ _ => Request.noConfusion) (fun _ => hemit _) settings)
    intro journal
    exact only_printEntries hemit journal.entries
  · exact callsNone_emit _

/-- The command for sessions runs the lines that are typed. -/
theorem Ready.session {flags : Flags} {lines : List Text} {input : Text} {events : List Event}
    {after : World} (h : Ready flags.common.given settings flags.unrecorded left world)
    (hinput : world.input = []) (htyped : typedLines input = lines)
    (hlines : Ends ((sessionFor settings flags.unrecorded).run (flags.angles.getD settings.angles)
      lines) world () events after) :
    ∃ after', Ends (execute (sessionLine flags)) { world with input } success
        ((if flags.common.verbose then [.verbose] else []) ++ events) after' ∧
      after.Twin after' := by
  have htwin := twin_begun flags.common.verbose world
  have hbegun : begun flags.common.verbose { world with input } =
      { begun flags.common.verbose world with input } := by
    cases flags.common.verbose <;> rfl
  obtain ⟨after', hlines', hafter⟩ := hlines.twin (callsNone_session _ _ _ _) htwin
  obtain ⟨hrun, hevents⟩ := events_execute (read_sessionLine flags) rfl { world with input }
  have hready := h.twin htwin
  have hnone : (begun flags.common.verbose world).input = [] := htwin.alike.input.trans hinput
  change _ = (Command.session _).run (begun flags.common.verbose _) at hrun
  change _ = _ ++ (Command.session _).events (begun flags.common.verbose _) at hevents
  rw [hbegun] at hrun hevents
  generalize begun flags.common.verbose world = later at *
  have hread : Ends Program.input { later with input } input [] later := by
    refine ⟨?_, rfl⟩
    change (_, { later with input := [] }) = _
    rw [← hnone]
  have hsession : Ends (Command.session flags.given.sessionArguments) { later with input } success
      events after' := by
    rw [← htyped] at hlines'
    rw [← List.append_nil events, ← List.nil_append (events ++ [])]
    refine ends_orElse_of_ok (hready.openSession input) ?_
    exact hread.bind (hlines'.bind (ends_pure success after'))
  exact ⟨after', ⟨hrun.trans hsession.run, hevents.trans (congrArg (_ ++ ·) hsession.events)⟩, hafter⟩

/-- A session is the series of its parts, whether its lines are given or typed. -/
theorem session_is_evaluations (flags : Flags) (lines : List Text)
    (hsettings : flags.common.given.Load settings world)
    (hfile : Journal.TextOrNone (world.disk.read world.folder settings.journalPath))
    (hopens : records settings flags.unrecorded = true →
      Journal.CanBeOpened (world.disk.read world.folder settings.journalPath))
    (hclock : world.clock.natAbs + lines.length ≤ 10 ^ maxIntegerDigits)
    (hlines : ∀ line ∈ lines, Text.stripped line ≠ ":history".toList) :
    (∃ out err last,
      Played flags.common flags.unrecorded world
        (acts (flags.angles.getD settings.angles) lines) out err last ∧
      Shows ((sessionFor settings flags.unrecorded).run (flags.angles.getD settings.angles) lines >>=
        fun _ => pure success) world flags.common.verbose out err last ∧
      (world.input = [] → ∀ input, typedLines input = lines →
        Shows (execute (sessionLine flags)) { world with input } false out err last)) ∧
    ∀ before parts out err last angles expression error,
      Played flags.common flags.unrecorded before (.evaluation angles expression :: parts) out err
        last → evaluate angles.isDegrees expression = .error error →
      ∃ shown complained out' err' last', out = shown ++ out' ∧ err = complained ++ err' ∧
        Played flags.common flags.unrecorded before parts out' err' last' ∧ last.Twin last' := by
  constructor
  · have hready : Ready flags.common.given settings flags.unrecorded lines.length world :=
      ⟨hsettings, fun hrecords => Journal.exists_found_of_canBeOpened hfile (hopens hrecords), hclock⟩
    obtain ⟨events, after, out, err, last, hends, hplayed, hout, herr, hlast⟩ :=
      hready.lines lines (flags.angles.getD settings.angles) hlines world (.refl world)
    have hsession : Ends (_ >>= fun _ => pure success) world success (events ++ []) after :=
      hends.bind (ends_pure success after)
    rw [List.append_nil] at hsession
    refine ⟨out, err, last, hplayed, ⟨events, after, hsession, hout, herr, hlast.alike.disk.symm,
      hlast.alike.clock.symm⟩, fun hinput input htyped => ?_⟩
    obtain ⟨after', hcommand, htwin⟩ := hready.session hinput htyped hends
    have hlast' := htwin.symm.trans hlast
    exact ⟨_, after', hcommand, (output_begun _ _).trans hout, (errorOutput_begun _ _).trans herr,
      hlast'.alike.disk.symm, hlast'.alike.clock.symm⟩
  · intro before parts out err last angles expression error hplayed herror
    cases hplayed with
    | evaluation hcommand hrest =>
      have htwin := @twin_evalLine_of_error ⟨flags.common, some angles, flags.unrecorded⟩ _ _ _ rfl
        herror false before
      rw [hcommand.run] at htwin
      obtain ⟨last', hplayed', hlast⟩ := hrest.twin htwin.symm
      exact ⟨_, _, _, _, last', rfl, rfl, hplayed', hlast⟩

end Sessions

/-! A session in which a value is recorded, an expression fails, and the unit of angles is set before
the session is left; and the same session where the journal has an integer with one digit too many. -/

def sessionFlags : Flags := ⟨cappedArguments, none, false⟩

def sessionLines : List Text := [['1', '+', '1'], ['1', '+'], ":rad".toList, [' ', '2'], ":q".toList]

theorem load_capped {world : World} (hfolder : world.folder = [])
    (hdisk : Disk.Amended [['h']] cappedWorld.disk world.disk)
    (hworld : { world with disk := cappedWorld.disk } = cappedWorld) :
    sessionFlags.common.given.Load cappedSettings world := by
  intro disk hamended
  rw [hfolder] at hamended
  exact give_capped world hworld disk (hdisk.trans hamended).beside

theorem session_is_evaluations_capped :
    sessionFlags.common.given.Load cappedSettings cappedWorld ∧
    Journal.TextOrNone (cappedWorld.disk.read cappedWorld.folder cappedSettings.journalPath) ∧
    (records cappedSettings sessionFlags.unrecorded = true →
      Journal.CanBeOpened (cappedWorld.disk.read cappedWorld.folder cappedSettings.journalPath)) ∧
    cappedWorld.clock.natAbs + sessionLines.length ≤ 10 ^ maxIntegerDigits ∧
    (∀ line ∈ sessionLines, Text.stripped line ≠ ":history".toList) ∧
    ∃ out err last, Played cappedArguments false cappedWorld (acts .degrees sessionLines) out err last ∧
      Shows (execute (sessionLine sessionFlags))
        { cappedWorld with input := Text.joined "\n" sessionLines } false out err last := by
  have hload := load_capped rfl (.refl _ _) rfl
  have hfile : Journal.TextOrNone
      (cappedWorld.disk.read cappedWorld.folder cappedSettings.journalPath) :=
    Journal.TextOrNone.none (show DiskFault.missing ≠ .zeroInName from nofun)
  have hopens : Journal.CanBeOpened
      (cappedWorld.disk.read cappedWorld.folder cappedSettings.journalPath) :=
    fun text htext => nomatch htext
  have hclock : cappedWorld.clock.natAbs + sessionLines.length ≤ 10 ^ maxIntegerDigits :=
    Nat.le_trans (show 0 + 5 ≤ 10 ^ 1 by decide) (Nat.pow_le_pow_right (by decide) (by decide))
  have hlines : ∀ line ∈ sessionLines, Text.stripped line ≠ ":history".toList := by decide
  obtain ⟨⟨out, err, last, hplayed, -, hcommand⟩, -⟩ :=
    session_is_evaluations sessionFlags sessionLines hload hfile (fun _ => hopens) hclock hlines
  exact ⟨hload, hfile, fun _ => hopens, hclock, hlines, out, err, last, hplayed,
    hcommand rfl _ (by decide)⟩

/-- The world of that session, but for the text of the journal. -/
def overlongWorld : World :=
  { cappedWorld with disk := cappedWorld.disk.put [['h']] (.file (Utf8.encode Journal.longText)) }

theorem read_overlong : overlongWorld.disk.read overlongWorld.folder cappedSettings.journalPath =
    .ok (Utf8.encode Journal.longText) := by
  have hlocate : cappedWorld.disk.locate [] cappedSettings.journalPath = .ok [['h']] := rfl
  exact Disk.read_of_write (Disk.write_eq_ok.mpr ⟨_, hlocate, by decide, rfl⟩)

/-- The file of the journal is a text, but the session ends at its first value. -/
theorem not_session_is_evaluations :
    sessionFlags.common.given.Load cappedSettings overlongWorld ∧
    Journal.TextOrNone (overlongWorld.disk.read overlongWorld.folder cappedSettings.journalPath) ∧
    (((sessionFor cappedSettings false).run .degrees [['1']]).run overlongWorld).1 =
      .error (.crash .numeralTooLong) := by
  have hwrite : cappedWorld.disk.write [] cappedSettings.journalPath (Utf8.encode Journal.longText) =
      .ok overlongWorld.disk :=
    Disk.write_eq_ok.mpr ⟨[['h']], rfl, by decide, rfl⟩
  refine ⟨load_capped rfl (Disk.amended_write hwrite) rfl, ?_, ?_⟩
  · rw [read_overlong]
    exact .text _
  · have hvalue : (evaluate AngleUnit.degrees.isDegrees ['1']).isOk = true := by decide +kernel
    have hfound : Journal.found (overlongWorld.disk.read overlongWorld.folder
        cappedSettings.journalPath) = .error .numeralTooLong := by
      rw [read_overlong, Journal.found_of_encode, Journal.entriesIn_eq, Journal.read_longText]
    have hline : Line.ofText ['1'] = .expression ['1'] := by decide
    cases hresult : evaluate AngleUnit.degrees.isDegrees ['1'] with
    | error error =>
      rw [hresult] at hvalue
      cases hvalue
    | ok value => exact run_session_of_found_error rfl hfound hline hresult []

end Reckoner.Command
