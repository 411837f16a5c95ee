import Reckoner.Command.Run
import Reckoner.Proofs.Disk.Folders
import Reckoner.Proofs.Journal.Agreement
import Reckoner.Proofs.Program.Asking
import Reckoner.Proofs.Program.Requests

/-! What the steps of commands do in a world: an evaluation gives the value of the expression or its
failure, and a record puts one entry into the file of the journal. -/

namespace Reckoner.Command

/-! ### Failures that are met -/

section OrElse

variable {α β : Type} {stages : List Stage} {program : Program α} {otherwise : Failure → Program β}
  {next : α → Program β} {world between : World}

theorem run_orElse_of_ok {value : α} (h : program.run world = (.ok value, between)) :
    (orElse stages program otherwise next).run world = (next value).run between := by
  have hattempt := Program.run_attempt program world
  rw [h] at hattempt
  rw [orElse, Program.run_bind_of_ok hattempt]

theorem run_orElse_of_failure {failure : Failure} (hstage : stages.elem failure.stage = true)
    (h : program.run world = (.error (.failure failure), between)) :
    (orElse stages program otherwise next).run world = (otherwise failure).run between := by
  have hattempt := Program.run_attempt program world
  rw [h] at hattempt
  rw [orElse, Program.run_bind_of_ok hattempt]
  dsimp only
  rw [if_pos hstage]

/-- A fault that is not met ends the program. -/
theorem run_orElse_of_unmet {fault : Fault}
    (hunmet : ∀ failure, fault = .failure failure → stages.elem failure.stage = false)
    (h : program.run world = (.error fault, between)) :
    (orElse stages program otherwise next).run world = (.error fault, between) := by
  have hattempt := Program.run_attempt program world
  rw [h] at hattempt
  rw [orElse, Program.run_bind_of_ok hattempt]
  cases fault with
  | failure failure =>
    dsimp only
    rw [hunmet failure rfl]
    rfl
  | _ => rfl

theorem events_orElse_of_ok {value : α} (h : program.run world = (.ok value, between)) :
    (orElse stages program otherwise next).events world =
      program.events world ++ (next value).events between := by
  have hattempt := Program.run_attempt program world
  rw [h] at hattempt
  rw [orElse, Program.events_bind_of_ok hattempt, Program.events_attempt]

theorem events_orElse_of_failure {failure : Failure} (hstage : stages.elem failure.stage = true)
    (h : program.run world = (.error (.failure failure), between)) :
    (orElse stages program otherwise next).events world =
      program.events world ++ (otherwise failure).events between := by
  have hattempt := Program.run_attempt program world
  rw [h] at hattempt
  rw [orElse, Program.events_bind_of_ok hattempt, Program.events_attempt]
  dsimp only
  rw [if_pos hstage]

/-- A fault that is met by asking, or is not met, leaves a twin of the world. -/
theorem twin_orElse_of_error {fault : Fault}
    (hotherwise : ∀ failure, (otherwise failure).OnlyAsks)
    (h : program.run world = (.error fault, between)) :
    between.Twin ((orElse stages program otherwise next).run world).2 := by
  have hattempt := Program.run_attempt program world
  rw [h] at hattempt
  rw [orElse, Program.run_bind_of_ok hattempt]
  cases fault with
  | failure failure =>
    dsimp only
    split
    · exact (hotherwise failure).twin between
    · exact .refl between
  | _ => exact .refl between

end OrElse

/-! ### Evaluations -/

section Evaluations

variable {angles : AngleUnit} {expression : Text} {world : World}

theorem elem_evaluationStages (error : ExpressionError) :
    evaluationStages.elem error.failure.stage = true := by
  cases error <;> rfl

theorem evaluate_of_explain {degrees : Bool} {form : List Token} (h : explain expression = .ok form) :
    evaluate degrees expression = (valueOf degrees form).mapError .eval := by
  rw [evaluate, h]
  rfl

theorem evaluate_of_explain_error {degrees : Bool} {error : ExpressionError}
    (h : explain expression = .error error) : evaluate degrees expression = .error error := by
  rw [evaluate, h]
  rfl

/-- An evaluation gives the value of the expression or its failure; nothing changes but the log. -/
theorem run_evaluated (angles : AngleUnit) (expression : Text) (world : World) : ∃ events,
    (evaluated angles expression).run world =
      ((evaluate angles.isDegrees expression).mapError fun error => .failure error.failure,
        world.showsAll events) := by
  rw [evaluated]
  cases hform : explain expression with
  | error error =>
    rw [evaluate_of_explain_error hform]
    exact ⟨[], by rw [World.showsAll_nil]; rfl⟩
  | ok form =>
    rw [evaluate_of_explain hform, ofExpression, Program.done_bind]
    cases valueOf angles.isDegrees form with
    | error error => exact ⟨_, rfl⟩
    | ok value =>
      exact ⟨_, congrArg (Prod.mk (Except.ok value)) (World.showsAll_showsAll world [_] [_])⟩

/-- The postfix form that is shown beside a value, if it is asked for. -/
def shownForm (showsPostfix : Bool) (expression : Text) : Option Text :=
  if showsPostfix then (explain expression).toOption.map tokensText else none

theorem run_formAndValue_of_ok {value : Double} (showsPostfix : Bool)
    (h : evaluate angles.isDegrees expression = .ok value) (world : World) : ∃ events,
    (formAndValue showsPostfix angles expression).run world =
      (.ok (shownForm showsPostfix expression, value), world.showsAll events) := by
  obtain ⟨events, hrun⟩ := run_evaluated angles expression world
  rw [h] at hrun
  refine ⟨events, ?_⟩
  rw [formAndValue]
  cases showsPostfix with
  | false =>
    rw [if_neg Bool.false_ne_true, Program.run_bind_of_ok hrun]
    rfl
  | true =>
    obtain ⟨form, hform, -⟩ := bind_eq_ok h
    rw [if_pos rfl, shownForm, if_pos rfl, hform, ofExpression, Program.done_bind,
      Program.run_bind_of_ok hrun]
    rfl

theorem run_formAndValue_of_error {error : ExpressionError} (showsPostfix : Bool)
    (h : evaluate angles.isDegrees expression = .error error) (world : World) : ∃ events,
    (formAndValue showsPostfix angles expression).run world =
      (.error (.failure error.failure), world.showsAll events) := by
  obtain ⟨events, hrun⟩ := run_evaluated angles expression world
  rw [h] at hrun
  rw [formAndValue]
  cases showsPostfix with
  | false => exact ⟨events, by rw [if_neg Bool.false_ne_true, Program.run_bind_of_error hrun]⟩
  | true =>
    rw [if_pos rfl]
    cases hform : explain expression with
    | error error' =>
      rw [evaluate_of_explain_error hform] at h
      obtain rfl := Except.error.inj h
      exact ⟨[], by rw [World.showsAll_nil]; rfl⟩
    | ok form =>
      refine ⟨events, ?_⟩
      rw [ofExpression, Program.done_bind, Program.run_bind_of_error hrun]

end Evaluations

/-! ### Translations -/

/-- A request is translated with the settings of the command. -/
theorem run_settings_of_translated {common : CommonArguments} {request : Text} {settings : Settings}
    {candidate : Candidate} {world world' : World}
    (h : (translated common request).run world = (.ok (settings, candidate), world')) :
    common.settings.run world = (.ok settings, world) := by
  rw [translated] at h
  obtain ⟨given, between, hsettings, h⟩ := Program.run_bind_eq_ok h
  obtain ⟨translator, between', -, h⟩ := Program.run_bind_eq_ok h
  obtain ⟨-, between', -, h⟩ := Program.run_bind_eq_ok h
  obtain ⟨candidate', between', -, h⟩ := Program.run_bind_eq_ok h
  obtain ⟨rfl, -⟩ := Prod.mk.inj (Except.ok.inj (Prod.mk.inj h).1)
  have hworld := (onlyReads_settings common).run_snd world
  rw [hsettings] at hworld
  rw [hsettings, ← hworld]

/-! ### Records -/

/-- What an entry tells but its time: the expression and the shown result. -/
def work (entry : Entry) : LooseText × LooseText := (entry.expression, entry.result)

/-- The file of the journal has the latest `m` of the results that were kept, and nothing else on the
disk is different from the start, but that folders have been made. -/
structure Tended (settings : Settings) (m : ℕ) (place : Place) (start : Disk)
    (kept : List (LooseText × LooseText)) (disk : Disk) : Prop where
  enabled : settings.journalEnabled = true
  capacity : settings.journalCapacity = m
  writable : disk.Writable settings.journalPath place
  beside : Disk.Beside place start disk
  file : ∃ entries, Journal.found (disk.read [] settings.journalPath) = .ok entries ∧
    entries.map work = kept.take m

section Records

variable {settings : Settings} {m : ℕ} {place : Place} {start : Disk}
  {kept : List (LooseText × LooseText)} {world : World}

theorem run_openJournal (h : Tended settings m place start kept world.disk) :
    ∃ entries events, entries.map work = kept.take m ∧ (∀ e ∈ entries, e.Keepable) ∧
      Event.output events = [] ∧ (openJournal settings).run world =
        (.ok ⟨settings.journalPath, m, entries⟩, world.showsAll events) := by
  obtain ⟨entries, hfound, hwork⟩ := h.file
  have hread := hfound
  rw [← Disk.read_of_isAbsolute h.writable.absolute world.folder] at hread
  obtain ⟨events, hsilent, hrun⟩ := @Journal.run_opened_of_found settings.journalPath m _ _ hread
  have hlength : entries.length ≤ m := by
    rw [← List.length_map work, hwork]
    exact List.length_take_le m kept
  refine ⟨entries, events, hwork, Journal.keepable_of_found hfound, hsilent, ?_⟩
  rw [openJournal, h.capacity, hrun, List.take_of_length_le hlength]

/-- A record in a journal whose file can be written. -/
theorem run_record_of_writable {path : Path} {entries : List Entry} {entry : Entry}
    (hwritable : world.disk.Writable path place) (hentries : ∀ e ∈ entries, e.Keepable)
    (hentry : entry.Keepable) (htime : entry.time = world.clock) : ∃ disk,
    ((⟨path, m, entries⟩ : Journal).record entry.expression entry.result none).run world =
      (.ok (entry, ⟨path, m, (entry :: entries).take m⟩),
        { world with disk, clock := world.clock + 1 }) ∧
      disk.Writable path place ∧ Disk.Beside place world.disk disk ∧
      Journal.found (disk.read [] path) = .ok ((entry :: entries).take m) := by
  have hkeepable : ∀ e ∈ (entry :: entries).take m, e.Keepable := fun e he =>
    List.forall_mem_cons.mpr ⟨hentry, hentries⟩ e (List.mem_of_mem_take he)
  have htext := Entry.writeAll?_of_keepable hkeepable .compact
  obtain ⟨made, disk, hmake, hwrite, hwritable', hbeside⟩ :=
    hwritable.write (Utf8.encode (Entry.writeAll .compact ((entry :: entries).take m)))
  refine ⟨disk, ?_, hwritable', hbeside, ?_⟩
  · rw [← Disk.makeFolders_of_isAbsolute (show path.parent.isAbsolute = true from hwritable.absolute)
      world.folder] at hmake
    rw [← Disk.write_of_isAbsolute hwritable.absolute world.folder] at hwrite
    obtain ⟨expression, result, time⟩ := entry
    obtain rfl : time = world.clock := htime
    exact @Journal.run_record ⟨path, m, entries⟩ world expression result none _ made disk htext hmake
      hwrite
  · rw [Disk.read_of_write hwrite, ← List.append_nil (Entry.writeAll _ _)]
    exact Journal.found_encode htext hkeepable (List.forall_mem_nil _) (List.forall_mem_nil _)

/-- A record puts the result before the others, unless nothing is to be kept. -/
theorem Tended.record (h : Tended settings m place start kept world.disk) (unrecorded : Bool)
    (expression result : Text) (hclock : world.clock.natAbs < 10 ^ maxIntegerDigits) :
    ∃ world', (record settings unrecorded expression result).run world = (.ok (), world') ∧
      Tended settings m place start
        (if unrecorded then kept else (expression.loose, result.loose) :: kept) world'.disk ∧
      world'.input = world.input ∧ world'.clock.natAbs ≤ world.clock.natAbs + 1 := by
  rw [Command.record, h.enabled, Bool.true_and]
  cases unrecorded with
  | true => exact ⟨world, rfl, h, rfl, Nat.le_succ _⟩
  | false =>
    -- The file is opened anew for each record.
    obtain ⟨entries, events, hwork, hkeepable, -, hopen⟩ := run_openJournal h
    have hentry : Entry.Keepable ⟨expression.loose, result.loose, world.clock⟩ := by
      refine ⟨LooseText.isJoined_loose _, LooseText.isJoined_loose _, ?_⟩
      rw [Entry.length_ofNat_le_iff (by decide)]
      exact hclock
    obtain ⟨disk, hrecord, hwritable, hbeside, hfound⟩ := @run_record_of_writable m place
      (world.showsAll events) _ _ _ h.writable hkeepable hentry rfl
    refine ⟨_, run_orElse_of_ok ((Program.run_bind_of_ok hopen).trans
      (Program.run_bind_of_ok hrecord)), ⟨h.enabled, h.capacity, hwritable, h.beside.trans hbeside,
        _, hfound, ?_⟩, rfl, ?_⟩
    · rw [List.map_take, List.map_cons, hwork, Journal.take_cons_take]
      rfl
    · exact Int.natAbs_add_le world.clock 1

/-- Nothing is kept after the journal was cleared. -/
theorem Tended.clear (h : Tended settings m place start kept world.disk) (entries : List Entry) :
    ∃ disk, ((⟨settings.journalPath, m, entries⟩ : Journal).clear).run world =
        (.ok ⟨settings.journalPath, m, []⟩, { world with disk }) ∧
      Tended settings m place start [] disk := by
  obtain ⟨disk, hremove, hwritable, hbeside⟩ := h.writable.remove
  have hread := Disk.read_of_remove hremove
  rw [← Disk.remove_of_isAbsolute h.writable.absolute world.folder] at hremove
  refine ⟨disk, Journal.run_clear hremove, h.enabled, h.capacity, hwritable,
    h.beside.trans hbeside, [], ?_, ?_⟩
  · rw [hread]
    rfl
  · rw [List.take_nil]
    rfl

end Records

/-! ### Command lines -/

/-- The arguments that every command has which uses settings. -/
def Arguments.common? : Arguments → Option CommonArguments
  | .eval arguments => some arguments.common
  | .ask arguments => some arguments.common
  | .translate arguments => some arguments.common
  | .history arguments => some arguments.common
  | .session arguments => some arguments.common
  | .serve _ => none

/-- The world in which a command begins: the log is shown in full if that is asked for. -/
def begun (verbose : Bool) (world : World) : World :=
  if verbose then world.shows .verbose else world

theorem twin_begun (verbose : Bool) (world : World) : world.Twin (begun verbose world) := by
  cases verbose with
  | false => exact .refl world
  | true => exact world.twin_showsAll [.verbose]

section Begun

variable {words : List Text} {arguments : Arguments} {program : Program Nat} {world : World}

/-- A command line that has been read is the command with its arguments. -/
theorem events_execute (hread : Arguments.read words = .ok arguments)
    (hprogram : arguments.run = if arguments.verbose then Program.showLog >>= fun _ => program
      else program) (world : World) :
    (execute words).run world = program.run (begun arguments.verbose world) ∧
      (execute words).events world = (if arguments.verbose then [.verbose] else []) ++
        program.events (begun arguments.verbose world) := by
  rw [execute, hread]
  dsimp only
  rw [hprogram, begun]
  split
  · exact ⟨rfl, rfl⟩
  · exact ⟨rfl, rfl⟩

end Begun

end Reckoner.Command
