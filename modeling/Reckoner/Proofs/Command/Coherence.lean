import Reckoner.Proofs.Checked.Evaluation
import Reckoner.Proofs.Command.Lines
import Reckoner.Proofs.Command.Objects
import Reckoner.Proofs.Command.Steps
import Reckoner.Proofs.Journal.Hosted
import Reckoner.Proofs.Json.Characters

/-! Answers in JSON.  On a system that may refuse anything, a command that is asked for JSON and ends
with an exit code has printed exactly one line: an object that agrees with the code. -/

namespace Reckoner.Command

open Json (Value)
open Program

variable {α : Type} {host : Host} {start world between after : World} {name : Text}

/-! ### What has been printed -/

/-- From one world to another nothing has been printed. -/
def Quiet (start world : World) : Prop :=
  ∃ events, world.events = start.events ++ events ∧ Event.output events = []

theorem Quiet.refl (world : World) : Quiet world world := ⟨[], (List.append_nil _).symm, rfl⟩

theorem Quiet.trans (h : Quiet start between) (h' : Quiet between after) : Quiet start after := by
  obtain ⟨events, hevents, hnone⟩ := h
  obtain ⟨more, hmore, hnone'⟩ := h'
  refine ⟨events ++ more, ?_, ?_⟩
  · rw [hmore, hevents, List.append_assoc]
  · rw [Event.output_append, hnone, hnone', List.append_nil]

theorem Quiet.runOn {program : Program α} {result : Except Fault α} (h : Quiet start world)
    (hhost : host.Honest) (hprogram : program.PrintsNone)
    (hrun : program.runOn host world = (result, after)) : Quiet start after := by
  have hafter : Quiet world (program.runOn host world).2 := hprogram.runOn_events hhost world
  rw [hrun] at hafter
  exact h.trans hafter

/-- A command that ends with an exit code has printed one object on a line of its own, which can be
read and agrees with the code. -/
def Answered (name : Text) (start : World) (ended : Except Fault Nat × World) : Prop :=
  ∀ code, ended.1 = .ok code → ∃ shown members, ended.2.events = start.events ++ shown ∧
    Event.output shown = (Value.object members).write .compact ++ "\n" ∧
    Legible Json.maxDepth (.object members) ∧ Coherent name code members

theorem answered_error (fault : Fault) (after : World) :
    Answered name start (.error fault, after) := by
  intro code hcode
  cases hcode

theorem answered_shows {members : List (LooseText × Value)} {code : Nat} (hquiet : Quiet start world)
    (hlegible : Legible Json.maxDepth (.object members)) (hcoherent : Coherent name code members) :
    Answered name start
      (.ok code, world.shows (.printed ((Value.object members).write .compact ++ "\n"))) := by
  obtain ⟨events, hevents, hnone⟩ := hquiet
  rintro _ ⟨⟩
  refine ⟨events ++ [.printed ((Value.object members).write .compact ++ "\n")], members, ?_, ?_,
    hlegible, hcoherent⟩
  · rw [World.shows, hevents, List.append_assoc]
  · rw [Event.output_append, hnone, Event.output_printed, List.nil_append]

/-- An object is printed, or the output does not take it. -/
theorem runOn_printJson (hhost : host.Honest) (members : List (LooseText × Value)) (value : α)
    (world : World) : (printJson members >>= fun _ => pure value).runOn host world =
        (.ok value, world.shows (.printed ((Value.object members).write .compact ++ "\n"))) ∨
      ∃ fault, (printJson members >>= fun _ => pure value).runOn host world =
        (.error fault, world) := by
  rcases runOn_emit hhost (.printed ((Value.object members).write .compact ++ "\n")) world with
    hrun | ⟨_, fault, -, -, hrun⟩
  · exact .inl (runOn_bind_of_ok hrun)
  · exact .inr ⟨_, runOn_bind_of_error hrun⟩

theorem answered_printJson (hhost : host.Honest) {members : List (LooseText × Value)} {code : Nat}
    (hquiet : Quiet start world) (hlegible : Legible Json.maxDepth (.object members))
    (hcoherent : Coherent name code members) :
    Answered name start ((printJson members >>= fun _ => pure code).runOn host world) := by
  rcases runOn_printJson hhost members code world with hrun | ⟨fault, hrun⟩
  · rw [hrun]
    exact answered_shows hquiet hlegible hcoherent
  · rw [hrun]
    exact answered_error fault world

theorem answered_report (hhost : host.Honest) {failure : Failure} (hquiet : Quiet start world)
    (hstage : failure.stage ∈ reportedStages) :
    Answered name start ((report name true failure).runOn host world) :=
  answered_printJson hhost hquiet (legible_failureJson name failure) (coherent_failureJson hstage)

/-! ### Programs that go on -/

section GoesOn

variable {program : Program α} {next : α → Program Nat} {stages : List Stage}
  {otherwise : Failure → Program Nat}

theorem answered_bind (hhost : host.Honest) (hquiet : Quiet start world)
    (hprogram : program.PrintsNone)
    (hnext : ∀ value between, program.runOn host world = (.ok value, between) → Quiet start between →
      Answered name start ((next value).runOn host between)) :
    Answered name start ((program >>= next).runOn host world) := by
  rcases hrun : program.runOn host world with ⟨fault | value, between⟩
  · rw [runOn_bind_of_error hrun]
    exact answered_error fault between
  · rw [runOn_bind_of_ok hrun]
    exact hnext value between hrun (hquiet.runOn hhost hprogram hrun)

/-- What a program prints nothing for is answered by its handler, or by what comes after it. -/
theorem answered_orElse (hhost : host.Honest) (hquiet : Quiet start world)
    (hprogram : program.PrintsNone) (hstages : ∀ stage ∈ stages, stage ∈ reportedStages)
    (hotherwise : ∀ failure between, failure.stage ∈ reportedStages → Quiet start between →
      Answered name start ((otherwise failure).runOn host between))
    (hnext : ∀ value between, program.runOn host world = (.ok value, between) → Quiet start between →
      Answered name start ((next value).runOn host between)) :
    Answered name start ((orElse stages program otherwise next).runOn host world) := by
  apply runOn_orElse (Answered name start)
  · intro value between hrun
    exact hnext value between hrun (hquiet.runOn hhost hprogram hrun)
  · intro failure between hrun hstage
    exact hotherwise failure between (hstages _ (List.elem_iff.mp hstage))
      (hquiet.runOn hhost hprogram hrun)
  · intro fault between _ _
    exact answered_error fault between

end GoesOn

/-! ### Evaluations and requests -/

variable {settings : Settings} {common : CommonArguments} {request : Text}

theorem printsNone_record (settings : Settings) (unrecorded : Bool) (expression result : Text) :
    (record settings unrecorded expression result).PrintsNone :=
  printsNone_of_isKeeping (keeps_record settings unrecorded expression result)

/-- What a command goes on with is the value of the expression. -/
theorem yields_evaluated (angles : AngleUnit) (expression : Text) :
    (evaluated angles expression).Yields
      fun value => evaluate angles.isDegrees expression = .ok value := by
  rw [evaluated, evaluate]
  cases explain expression with
  | error error => trivial
  | ok form =>
    change Yields _ (log _ _ _ >>= _)
    refine yields_bind fun _ => ?_
    change Yields (fun value => Except.mapError ExpressionError.eval _ = .ok value)
      (ofExpression _ >>= _)
    cases valueOf angles.isDegrees form with
    | error error => trivial
    | ok value =>
      change Yields _ (log _ _ _ >>= _)
      exact yields_bind fun _ => rfl

theorem yields_formAndValue (showsPostfix : Bool) (angles : AngleUnit) (expression : Text) :
    (formAndValue showsPostfix angles expression).Yields
      fun valued => evaluate angles.isDegrees expression = .ok valued.2 := by
  rw [formAndValue]
  split
  · exact yields_bind fun form => yields_bind_of_yields (yields_evaluated angles expression)
      fun value hvalue => hvalue
  · exact yields_bind_of_yields (yields_evaluated angles expression) fun value hvalue => hvalue

theorem answered_eval (hhost : host.Honest) {arguments : EvalArguments}
    (hjson : arguments.json = true) (hquiet : Quiet start world) :
    Answered "eval" start ((eval arguments).runOn host world) := by
  rw [eval, withSettings, hjson]
  refine answered_orElse hhost hquiet (onlyReads_settings _).inquires.printsNone (by decide)
    (fun _ _ hstage hquiet => answered_report hhost hquiet hstage) fun settings loaded _ hquiet => ?_
  refine answered_orElse hhost hquiet (only_formAndValue (fun _ => rfl) _ _ _) (by decide)
    (fun _ _ hstage hquiet => answered_report hhost hquiet hstage)
    fun (form, value) valued hvalued hquiet => ?_
  have hfinite := isFinite_of_evaluate ((yields_formAndValue _ _ _).runOn hvalued)
  refine answered_bind hhost hquiet (printsNone_record _ _ _ _) fun _ recorded _ hquiet => ?_
  rw [if_pos rfl]
  exact answered_printJson hhost hquiet (legible_evalJson _ _ hfinite _ _)
    (coherent_evalJson _ _ _ _ _)

/-- A translator is asked twice at most. -/
theorem yields_attempts (translator : Translator) (request : Text) (made left : ℕ)
    (notes : Option (List Text)) : (translator.attemptsFrom request made notes left).Yields
      fun candidate => candidate.attempts ≤ made + left := by
  induction left generalizing made notes with
  | zero => exact Nat.le_refl made
  | succ left ih =>
    refine yields_bind fun expression => ?_
    dsimp only
    split
    · exact Nat.add_le_add_left (Nat.le_add_left 1 left) made
    · rw [Nat.add_comm left 1, ← Nat.add_assoc]
      exact ih _ _

theorem attempts_of_runOn_translated {candidate : Candidate}
    (h : (translated common request).runOn host world = (.ok (settings, candidate), after)) :
    candidate.attempts ≤ 2 := by
  obtain ⟨_, _, _, h⟩ := runOn_bind_eq_ok h
  obtain ⟨translator, _, _, h⟩ := runOn_bind_eq_ok h
  obtain ⟨_, _, _, h⟩ := runOn_bind_eq_ok h
  obtain ⟨candidate', _, hcandidate, h⟩ := runOn_bind_eq_ok h
  obtain ⟨-, rfl⟩ := Prod.mk.inj (Except.ok.inj (Prod.mk.inj h).1)
  have hattempts := (yields_attempts translator request 0 2 none).runOn hcandidate
  rwa [Nat.zero_add] at hattempts

theorem answered_translate (hhost : host.Honest) {arguments : TranslateArguments}
    (hjson : arguments.json = true) (hquiet : Quiet start world) :
    Answered "translate" start ((translate arguments).runOn host world) := by
  rw [translate, hjson]
  refine answered_orElse hhost hquiet (inquires_translated _ _).printsNone (by decide)
    (fun _ _ hstage hquiet => answered_report hhost hquiet hstage)
    fun (settings, candidate) translated htranslated hquiet => ?_
  dsimp only
  rw [if_pos rfl]
  exact answered_printJson hhost hquiet
    (legible_translateJson _ (attempts_of_runOn_translated htranslated)) (coherent_translateJson _ _)

theorem answered_ask (hhost : host.Honest) {arguments : AskArguments}
    (hjson : arguments.json = true) (hquiet : Quiet start world) :
    Answered "ask" start ((ask arguments).runOn host world) := by
  rw [ask, hjson]
  refine answered_orElse hhost hquiet (inquires_translated _ _).printsNone (by decide)
    (fun _ _ hstage hquiet => answered_report hhost hquiet hstage)
    fun (settings, candidate) translated htranslated hquiet => ?_
  dsimp only
  rw [Bool.not_true, Bool.and_false, if_neg Bool.false_ne_true]
  refine answered_orElse hhost hquiet (only_evaluated (fun _ => rfl) _ _) (by decide) ?_
    fun value valued hvalued hquiet => ?_
  · intro failure failed hstage hquiet
    rw [if_neg Bool.false_ne_true]
    exact answered_report hhost hquiet hstage
  · have hfinite := isFinite_of_evaluate ((yields_evaluated _ _).runOn hvalued)
    have hattempts := attempts_of_runOn_translated htranslated
    refine answered_bind hhost hquiet (printsNone_record _ _ _ _) fun _ recorded _ hquiet => ?_
    rw [if_pos rfl]
    exact answered_printJson hhost hquiet (legible_askJson _ _ hfinite _ hattempts)
      (coherent_askJson _ _ _ _ _)

/-! ### The command for the journal -/

theorem printsNone_openJournal (settings : Settings) : (openJournal settings).PrintsNone :=
  only_openJournal (fun _ => rfl) (fun _ => rfl) settings

theorem printsNone_clear (journal : Journal) : journal.clear.PrintsNone := by
  refine only_bind (only_bind (only_request rfl) only_ofDisk) fun reply => ?_
  cases reply <;> trivial

theorem printsNone_copyTo (journal : Journal) (destination : Path) :
    (journal.copyTo destination).PrintsNone := by
  have hwritten : (journal.written (.indented 2)).PrintsNone := by
    rw [Journal.written]
    split <;> trivial
  refine only_bind hwritten fun text => ?_
  refine only_bind (only_bind (only_request rfl) only_ofDisk) fun reply => ?_
  cases reply <;> trivial

/-- What has been printed when the entries of the journal have been removed or copied, as far as that
is asked for: an answer if that has been done, and nothing otherwise. -/
inductive Prepared (start : World) : Except Fault (Option Journal) × World → Prop
  | failed {fault : Fault} {after : World} (h : Quiet start after) :
    Prepared start (.error fault, after)
  | found {journal : Journal} {after : World} (h : Quiet start after)
    (hentries : ∀ e ∈ journal.entries, e.Keepable) : Prepared start (.ok (some journal), after)
  | answered {after : World} (h : Answered "history" start (.ok success, after)) :
    Prepared start (.ok none, after)

theorem prepared_printJson (hhost : host.Honest) {key : Text} {value : Value}
    (hcommand : Text.loose key ≠ "command") (hok : Text.loose key ≠ "ok")
    (hlegible : Legible (Json.maxDepth - 1) value) (hquiet : Quiet start world) :
    Prepared start ((printJson (historyJson [(Text.loose key, value)]) >>= fun _ =>
      pure none).runOn host world) := by
  rcases runOn_printJson hhost (historyJson [(Text.loose key, value)]) none world with
    hrun | ⟨fault, hrun⟩
  · rw [hrun]
    exact .answered (answered_shows hquiet (legible_historyJson hlegible)
      (coherent_historyJson hcommand hok value))
  · rw [hrun]
    exact .failed hquiet

theorem prepared_bind (hhost : host.Honest) {program : Program α}
    {next : α → Program (Option Journal)} (hquiet : Quiet start world)
    (hprogram : program.PrintsNone)
    (hnext : ∀ value between, program.runOn host world = (.ok value, between) → Quiet start between →
      Prepared start ((next value).runOn host between)) :
    Prepared start ((program >>= next).runOn host world) := by
  rcases hrun : program.runOn host world with ⟨fault | value, between⟩
  · rw [runOn_bind_of_error hrun]
    exact .failed (hquiet.runOn hhost hprogram hrun)
  · rw [runOn_bind_of_ok hrun]
    exact hnext value between hrun (hquiet.runOn hhost hprogram hrun)

theorem prepared_changeHistory (hhost : host.Honest) {arguments : HistoryArguments}
    (hjson : arguments.json = true) (hquiet : Quiet start world) :
    Prepared start ((changeHistory arguments).runOn host world) := by
  rw [changeHistory]
  refine prepared_bind hhost hquiet (onlyReads_settings _).inquires.printsNone
    fun settings loaded _ hquiet => ?_
  refine prepared_bind hhost hquiet (printsNone_openJournal settings)
    fun journal opened hopened hquiet => ?_
  have hentries := (Journal.sound_of_runOn_opened hopened).entries
  rw [hjson]
  split
  · refine prepared_bind hhost hquiet (printsNone_clear journal) fun _ cleared _ hquiet => ?_
    exact prepared_printJson hhost (by decide) (by decide) (legible_boolean true) hquiet
  · split
    · exact .found hquiet hentries
    · exact .found hquiet hentries
    · next destination hdestination =>
      rw [exportHistory, bind_bind]
      refine prepared_bind hhost hquiet (printsNone_copyTo journal _) fun _ copied _ hquiet => ?_
      rw [if_pos rfl]
      exact prepared_printJson hhost (by decide) (by decide) (legible_text _) hquiet

theorem printsNone_limited (limit : EntryLimit) (entries : List Entry) :
    (limited limit entries).PrintsNone := by
  cases limit <;> trivial

theorem mem_of_runOn_limited {limit : EntryLimit} {entries shown : List Entry} {entry : Entry}
    (h : (limited limit entries).runOn host world = (.ok shown, after)) (hentry : entry ∈ shown) :
    entry ∈ entries := by
  cases limit with
  | unlimited =>
    obtain rfl := Except.ok.inj (Prod.mk.inj h).1
    exact hentry
  | atMost count =>
    obtain rfl := Except.ok.inj (Prod.mk.inj h).1
    exact List.mem_of_mem_take hentry
  | blank => cases (Prod.mk.inj h).1

theorem answered_history (hhost : host.Honest) {arguments : HistoryArguments}
    (hjson : arguments.json = true) (hquiet : Quiet start world) :
    Answered "history" start ((history arguments).runOn host world) := by
  have hprepared := prepared_changeHistory hhost hjson hquiet
  rw [history, hjson]
  apply runOn_orElse (Answered "history" start)
  · intro shown between hrun
    rw [hrun] at hprepared
    cases hprepared with
    | answered h => exact h
    | @found journal _ hquiet hentries =>
      refine answered_bind hhost hquiet (printsNone_limited _ _)
        fun entries between hlimited hquiet => ?_
      rw [if_pos rfl]
      refine answered_printJson hhost hquiet (legible_historyJson (legible_array ?_))
        (coherent_historyJson (by decide) (by decide) _)
      refine List.forall_mem_map.mpr fun entry hentry => ?_
      exact legible_entry (hentries entry (mem_of_runOn_limited hlimited hentry))
  · intro failure between hrun hstage
    rw [hrun] at hprepared
    cases hprepared with
    | failed hquiet =>
      -- What fails here fails before anything is printed.
      have hstages : ∀ stage ∈ [Stage.config, .history], stage ∈ reportedStages := by decide
      exact answered_report hhost hquiet (hstages _ (List.elem_iff.mp hstage))
  · intro fault between _ _
    exact answered_error fault between

/-! ### All commands -/

theorem answered_when (hhost : host.Honest) {c : Prop} [Decidable c] {rest : Program Nat}
    (hquiet : Quiet start world)
    (hrest : ∀ world, Quiet start world → Answered name start (rest.runOn host world)) :
    Answered name start
      ((if c then Program.showLog >>= fun _ => rest else rest).runOn host world) := by
  split
  · exact answered_bind hhost hquiet (only_emit rfl) fun _ between _ hquiet => hrest between hquiet
  · exact hrest world hquiet

theorem answered_run (hhost : host.Honest) {arguments : Arguments}
    (hjson : arguments.json = true) (world : World) :
    Answered arguments.name world (arguments.run.runOn host world) := by
  refine answered_when hhost (.refl world) fun between hquiet => ?_
  cases arguments with
  | eval given => exact answered_eval hhost hjson hquiet
  | ask given => exact answered_ask hhost hjson hquiet
  | translate given => exact answered_translate hhost hjson hquiet
  | history given => exact answered_history hhost hjson hquiet
  | session given => cases hjson
  | serve folder => cases hjson

/-- A command that is asked for JSON and ends with an exit code has printed one line, which is a
JSON object with finite numbers only that agrees with the code: it names the command, and says that
it went well exactly if the code is that of success. Otherwise it tells the words and the kind of a
failure, by which the code is chosen; only where the last answer to a request is no expression, the
command that translates tells that answer instead, and what is wrong with it. -/
theorem answer_agrees_with_code (hhost : host.Honest) {words : List Text} {arguments : Arguments}
    {code : Nat} (hread : Arguments.read words = .ok arguments) (hjson : arguments.json = true)
    (hrun : (execute words).runOn host world = (.ok code, after)) :
    ∃ shown members, after.events = world.events ++ shown ∧
      Event.output shown = (Value.object members).write .compact ++ "\n" ∧
      '\n' ∉ (Value.object members).write .compact ∧
      Value.read ((Value.object members).write .compact) = .ok (.object members) ∧
      Portable (.object members) ∧ Coherent arguments.name code members := by
  have hanswered := answered_run hhost hjson world
  rw [execute, hread] at hrun
  dsimp only at hrun
  rw [hrun] at hanswered
  obtain ⟨shown, members, hevents, houtput, hlegible, hcoherent⟩ := hanswered code rfl
  have hreads := Json.read_write hlegible.fits .compact (List.forall_mem_nil _)
  rw [List.append_nil] at hreads
  exact ⟨shown, members, hevents, houtput, Json.lineFeed_not_mem_write _, hreads,
    hlegible.portable, hcoherent⟩

/-- An expression in which an operand is missing. -/
theorem answer_agrees_with_code_missing :
    Arguments.read ["eval", "--json", "1+"] = .ok (.eval { json := true, words := ["1+"] }) ∧
      ((execute ["eval", "--json", "1+"]).runOn World.reply {}).1 = .ok 1 ∧ ∃ shown members,
        ((execute ["eval", "--json", "1+"]).runOn World.reply {}).2.events = shown ∧
          Event.output shown = (Value.object members).write .compact ++ "\n" ∧
          '\n' ∉ (Value.object members).write .compact ∧
          Value.read ((Value.object members).write .compact) = .ok (.object members) ∧
          Portable (.object members) ∧ Coherent "eval" 1 members := by
  have hread : Arguments.read ["eval", "--json", "1+"] =
      .ok (.eval { json := true, words := ["1+"] }) := by decide +kernel
  have hcode : ((execute ["eval", "--json", "1+"]).runOn World.reply {}).1 = .ok 1 := by
    decide +kernel
  exact ⟨hread, hcode, answer_agrees_with_code honest_reply hread rfl (Prod.ext hcode rfl)⟩

/-! A request in which a parenthesis is left open. -/

def openWords : List Text := ["translate", "--json", "2 plus (3"]

def openMembers : List (LooseText × Value) :=
  [("command", .text "translate"), ("ok", .boolean false), ("text", .text "2 plus (3"),
    ("expression", .text "2 + (3"), ("attempts", .integer 1),
    ("errors", .array [.text "mismatched parentheses"])]

theorem not_answer_agrees_with_code :
    Arguments.read openWords = .ok (.translate { json := true, words := ["2 plus (3"] }) ∧
      ((execute openWords).runOn World.reply {}).1 = .ok 3 ∧
      Event.output ((execute openWords).runOn World.reply {}).2.events =
        (Value.object openMembers).write .compact ++ "\n" ∧
      Value.read ((Value.object openMembers).write .compact) = .ok (.object openMembers) ∧
      Value.member? "ok" openMembers = some (.boolean false) ∧
      Value.member? "error" openMembers = none ∧ Value.member? "kind" openMembers = none := by
  have hlegible : Legible Json.maxDepth (.object openMembers) :=
    @legible_translateJson 983 ⟨1, "2 + (3", ["mismatched parentheses"]⟩ "2 plus (3" one_le_two
  have hreads := Json.read_write hlegible.fits .compact (List.forall_mem_nil _)
  rw [List.append_nil] at hreads
  exact ⟨by decide +kernel, by decide +kernel, by decide +kernel, hreads, rfl, rfl, rfl⟩

end Reckoner.Command
