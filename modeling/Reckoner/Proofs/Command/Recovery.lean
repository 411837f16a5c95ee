import Reckoner.Proofs.Command.Coherence
import Reckoner.Proofs.Command.Evaluations
import Reckoner.Proofs.Command.Log
import Reckoner.Proofs.Journal.Recovery

/-! Evaluations whose results are to be recorded in a damaged journal.  Whatever can be recovered from
the file, the result is shown and the command ends well; only where opening the journal breaks off
does the command break off too. -/

namespace Reckoner

namespace Command

open Program

section Evaluation

variable {world : World} {words : List Text} {arguments : EvalArguments} {settings : Settings}
  {value : Double} {crash : Crash}

/-- A record ends well if the journal need not be opened or what it has can be recovered. -/
theorem run_record_of_recovered {unrecorded : Bool}
    (hclock : world.clock.natAbs < 10 ^ maxIntegerDigits)
    (hrecovered : records settings unrecorded = true → ∃ entries warning,
      Journal.Recovered world.disk world.folder settings.journalPath entries warning)
    (expression result : Text) :
    ∃ after, (record settings unrecorded expression result).run world = (.ok (), after) := by
  cases hrecords : records settings unrecorded with
  | false => exact ⟨world, run_record_of_not_records hrecords expression result world⟩
  | true =>
    obtain ⟨entries, warning, h⟩ := hrecovered hrecords
    obtain ⟨after, disk, events, hrun, -⟩ :=
      run_record_of_found hrecords (Journal.found_of_recovered h) hclock expression result
    exact ⟨after, hrun⟩

theorem ends_settings (h : (arguments.common.settings.run world).1 = .ok settings) :
    Ends arguments.common.settings world settings [] world :=
  ⟨Prod.ext h ((onlyReads_settings _).run_snd world), (onlyReads_settings _).events world⟩

/-- The text in which lines are printed. -/
def linesText (lines : List LooseText) : LooseText :=
  (lines.map fun line => (line ++ "\n" : LooseText)).flatten

theorem output_printedLines (lines : List LooseText) :
    Event.output (printedLines lines) = linesText lines := by
  induction lines with
  | nil => rfl
  | cons line lines ih => exact congrArg (fun rest => (line ++ "\n" : LooseText) ++ rest) ih

/-- An evaluation shows its result if what the journal has can be recovered. -/
theorem ends_execute_of_recovered (hread : Arguments.read words = .ok (.eval arguments))
    (hsettings : (arguments.common.settings.run world).1 = .ok settings)
    (hvalue : evaluate (arguments.angles.getD settings.angles).isDegrees
      (joinedWords arguments.words) = .ok value)
    (hclock : world.clock.natAbs < 10 ^ maxIntegerDigits)
    (hrecovered : records settings arguments.unrecorded = true → ∃ entries warning,
      Journal.Recovered world.disk world.folder settings.journalPath entries warning) :
    ∃ events after, Ends (execute words) world success events after ∧ Event.output events =
      linesText (resultLines arguments (arguments.angles.getD settings.angles) value) := by
  obtain ⟨logs, hlogs⟩ :=
    run_evaluated (arguments.angles.getD settings.angles) (joinedWords arguments.words) world
  rw [hvalue] at hlogs
  obtain ⟨recorded, hrecord⟩ := @run_record_of_recovered (world.showsAll logs) _ arguments.unrecorded
    hclock hrecovered (joinedWords arguments.words) (shown value)
  have heval := ends_eval_of_ok (ends_settings hsettings) rfl rfl hvalue (ends_of_showsAll hlogs)
    ⟨hrecord, rfl⟩
  obtain ⟨after, heval, -⟩ :=
    heval.twin (callsNone_eval arguments) (twin_begun arguments.common.verbose world)
  obtain ⟨hrun, hevents⟩ := events_execute hread rfl world
  refine ⟨_, after, ⟨hrun.trans heval.run, hevents.trans (congrArg (_ ++ ·) heval.events)⟩, ?_⟩
  -- Before the result nothing is printed, whatever is logged and warned of.
  have hquiet : (evaluated (arguments.angles.getD settings.angles)
      (joinedWords arguments.words)).PrintsNone := only_evaluated (fun _ => rfl) _ _
  have hlogged := hquiet.output_events world
  rw [(ends_of_showsAll hlogs).events] at hlogged
  have hrecorded := (printsNone_record settings arguments.unrecorded (joinedWords arguments.words)
    (shown value)).output_events (world.showsAll logs)
  change Event.output ((if arguments.common.verbose then [.verbose] else []) ++ _) = _
  rw [output_begun, Event.output_append, Event.output_append, hlogged, hrecorded,
    output_printedLines]
  rfl

/-- An evaluation breaks off where opening the journal does. -/
theorem run_execute_of_breaks (hread : Arguments.read words = .ok (.eval arguments))
    (hsettings : (arguments.common.settings.run world).1 = .ok settings)
    (hvalue : evaluate (arguments.angles.getD settings.angles).isDegrees
      (joinedWords arguments.words) = .ok value)
    (hrecords : records settings arguments.unrecorded = true)
    (h : Journal.Breaks world.disk world.folder settings.journalPath crash) :
    ((execute words).run world).1 = .error (.crash crash) := by
  have heval (world : World) (hsettings : (arguments.common.settings.run world).1 = .ok settings)
      (h : Journal.Breaks world.disk world.folder settings.journalPath crash) :
      ((Command.eval arguments).run world).1 = .error (.crash crash) := by
    obtain ⟨logs, hform⟩ := run_formAndValue_of_ok arguments.showsPostfix hvalue world
    rw [Command.eval, withSettings, run_orElse_of_ok (ends_settings hsettings).run]
    dsimp only
    rw [run_orElse_of_ok hform]
    have hrecord := @run_record_of_found_error _ _ (world.showsAll logs) _ hrecords
      (Journal.found_of_breaks h) (joinedWords arguments.words) (shown value)
    exact congrArg Prod.fst (run_bind_of_error (Prod.ext hrecord rfl))
  rw [(events_execute hread rfl world).1, begun]
  split
  · exact heval _ (by rwa [World.shows, run_fst_of_events]) h
  · exact heval world hsettings h

end Evaluation

/-- However the file of a journal is damaged, either what it has can be recovered or it makes opening
break off.  In the first case opening gives the entries up to the capacity, with the warning that is
due and no other.  An evaluation that is to be recorded then shows its result and ends well; so does
one that is not to be recorded.  In the second case both break off. -/
theorem damage_survived (world : World) :
    (∀ path, (∃ entries warning, Journal.Recovered world.disk world.folder path entries warning) ∨
      ∃ crash, Journal.Breaks world.disk world.folder path crash) ∧
    (∀ path capacity entries warning,
      Journal.Recovered world.disk world.folder path entries warning →
        (Journal.opened path capacity).run world = (.ok ⟨path, capacity, upTo capacity entries⟩,
          world.showsAll (Journal.warnings warning))) ∧
    (∀ path capacity crash, Journal.Breaks world.disk world.folder path crash →
      (Journal.opened path capacity).run world = (.error (.crash crash), world)) ∧
    ∀ words arguments settings value, Arguments.read words = .ok (.eval arguments) →
      (arguments.common.settings.run world).1 = .ok settings →
      evaluate (arguments.angles.getD settings.angles).isDegrees (joinedWords arguments.words) =
        .ok value →
      world.clock.natAbs < 10 ^ maxIntegerDigits →
        ((records settings arguments.unrecorded = true → ∃ entries warning,
            Journal.Recovered world.disk world.folder settings.journalPath entries warning) →
          ∃ events after, Ends (execute words) world success events after ∧ Event.output events =
            linesText (resultLines arguments (arguments.angles.getD settings.angles) value)) ∧
        ∀ crash, records settings arguments.unrecorded = true →
          Journal.Breaks world.disk world.folder settings.journalPath crash →
            ((execute words).run world).1 = .error (.crash crash) := by
  refine ⟨fun path => Journal.recovered_or_breaks _ _ path, fun _ _ _ _ h =>
    Journal.run_opened_of_recovered h, fun _ _ _ h => Journal.run_opened_of_breaks h, ?_⟩
  intro words arguments settings value hread hsettings hvalue hclock
  exact ⟨ends_execute_of_recovered hread hsettings hvalue hclock, fun crash hrecords h =>
    run_execute_of_breaks hread hsettings hvalue hrecords h⟩

/-! A sum that is to be recorded in a file with these bytes. -/

def heldWorld (bytes : Utf8.Bytes) : World where
  disk := cappedWorld.disk.put [['h']] (.file bytes)

theorem settings_held (bytes : Utf8.Bytes) :
    (cappedArguments.settings.run (heldWorld bytes)).1 = .ok cappedSettings :=
  give_capped cappedWorld rfl _ (Disk.beside_put (by decide) _ _)

theorem evaluate_sum : ∃ value, evaluate true ['1', '+', '1'] = .ok value ∧ shown value = ['2'] :=
  map_eq_ok (show (evaluate true ['1', '+', '1']).map shown = .ok ['2'] by decide +kernel)

/-- A text that breaks off is warned of, and the sum is shown. -/
theorem damage_survived_malformed :
    (Journal.opened cappedSettings.journalPath 1).run (heldWorld (Utf8.encode ['['])) =
        (.ok ⟨cappedSettings.journalPath, 1, []⟩, (heldWorld (Utf8.encode ['['])).showsAll
          [.logged .warning Journal.logSource "discarding malformed history /h: <json error>"]) ∧
      ∃ events after, Ends (execute sumWords) (heldWorld (Utf8.encode ['['])) success events after ∧
        Event.output events = Text.loose ['2', '\n'] := by
  obtain ⟨-, hopens, -, hevaluates⟩ := damage_survived (heldWorld (Utf8.encode ['[']))
  have hrecovered : Journal.Recovered (heldWorld (Utf8.encode ['['])).disk [] ⟨1, [['h']]⟩ [] _ :=
    .malformed rfl (by decide) (Utf8.decode_encode ['[']) (by cbv)
  obtain ⟨value, hvalue, hshown⟩ := evaluate_sum
  obtain ⟨hends, -⟩ := hevaluates sumWords
    { common := cappedArguments, words := [['1', '+', '1']] } cappedSettings value rfl
    (settings_held _) hvalue (Nat.pow_pos (by decide))
  refine ⟨hopens _ _ _ _ hrecovered, ?_⟩
  obtain ⟨events, after, hends, houtput⟩ := hends fun _ => ⟨_, _, hrecovered⟩
  refine ⟨events, after, hends, houtput.trans ?_⟩
  change linesText [(shown value).loose] = _
  rw [hshown]
  rfl

/-- Bytes that are no text make opening break off, and the sum is not shown. -/
theorem not_damage_survived :
    ((Journal.opened cappedSettings.journalPath 1).run (heldWorld [0xff])).1 =
        .error (.crash (.undecodable ⟨0, [0xff], .start⟩)) ∧
      ((execute sumWords).run (heldWorld [0xff])).1 =
        .error (.crash (.undecodable ⟨0, [0xff], .start⟩)) := by
  have hbreaks : Journal.Breaks (heldWorld [0xff]).disk [] cappedSettings.journalPath
      (.undecodable ⟨0, [0xff], .start⟩) := .undecodable rfl (by decide +kernel)
  obtain ⟨value, hvalue, -⟩ := evaluate_sum
  have hread : Arguments.read sumWords =
      .ok (.eval { common := cappedArguments, words := [['1', '+', '1']] }) := rfl
  exact ⟨congrArg Prod.fst (Journal.run_opened_of_breaks hbreaks),
    run_execute_of_breaks hread (settings_held _) hvalue rfl hbreaks⟩

end Command

end Reckoner
