import Reckoner.Command.Run
import Reckoner.Proofs.Program.Runs
import Reckoner.Proofs.Translator.Backends

/-! Programs that only look or ask: reading files and settings leaves the world as it is, and
translating and evaluating change no file and leave the clock alone. -/

namespace Reckoner

namespace Program

variable {α β : Type}

/-! ### Single requests -/

theorem only_ofDisk {allowed : Request → Prop} (reply : Except DiskFault α) :
    (ofDisk reply).Only allowed := by
  cases reply with
  | ok value => trivial
  | error fault => cases fault <;> trivial

theorem only_read {allowed : Request → Prop} {path : Path} (h : allowed (.read path)) :
    (read path).Only allowed :=
  only_bind (only_request h) only_ofDisk

theorem onlyGlances_resolve (path : Path) : (resolve path).OnlyGlances := by
  rw [resolve]
  split
  · exact trivial
  · exact only_bind (only_request rfl) fun _ => trivial

theorem only_readText {allowed : Request → Prop} {path : Path} (h : allowed (.read path)) :
    (readText path).Only allowed := by
  have hdecode (bytes : Utf8.Bytes) : (decodeText bytes).Only allowed := by
    rw [decodeText]
    split <;> trivial
  refine only_bind (only_read h) fun reply => ?_
  cases reply with
  | ok bytes => exact only_bind (hdecode bytes) fun _ => trivial
  | error fault => trivial

theorem onlyAsks_emit (event : Event) : (emit event).OnlyAsks := only_emit rfl

theorem onlyAsks_print (line : LooseText) : (print line).OnlyAsks := onlyAsks_emit _

theorem onlyAsks_complain (line : Text) : (complain line).OnlyAsks := onlyAsks_emit _

theorem inquires_log (level : Level) (source message : Text) :
    (log level source message).Inquires := only_emit rfl

theorem onlyAsks_when {c : Prop} [Decidable c] {first : Program Unit} {rest : Program α}
    (hfirst : first.OnlyAsks) (hrest : rest.OnlyAsks) :
    (if c then first >>= fun _ => rest else rest).OnlyAsks := by
  split
  · exact only_bind hfirst fun _ => hrest
  · exact hrest

theorem inquires_ofExcept (result : Except Failure α) : (ofExcept result).Inquires := by
  cases result <;> trivial

theorem only_ended {allowed : Request → Prop} (result : Except Fault α) :
    (ended result).Only allowed := by
  cases result <;> trivial

theorem inquires_translating {program : Program α} (h : program.Inquires) :
    program.translating.Inquires := by
  refine only_bind (only_attempt h) fun result => ?_
  cases result <;> trivial

end Program

open Program

/-! ### Settings -/

theorem only_hasSettings {allowed : Request → Prop} {folder : Path}
    (h : allowed (.isFile (settingsFile folder))) : (hasSettings folder).Only allowed := by
  refine only_bind (only_request h) fun reply => ?_
  cases reply <;> trivial

theorem onlyGlances_hasSettings (folder : Path) : (hasSettings folder).OnlyGlances :=
  only_hasSettings rfl

theorem onlyGlances_nearestSettings (reversed : List Text) :
    (nearestSettings reversed).OnlyGlances := by
  induction reversed with
  | nil => exact only_bind (onlyGlances_hasSettings _) fun found => by cases found <;> trivial
  | cons name above ih =>
    refine only_bind (onlyGlances_hasSettings _) fun found => ?_
    cases found with
    | true => trivial
    | false => exact ih

theorem onlyGlances_findSettings (start : Path) : (findSettings start).OnlyGlances := by
  have hfolder : (searchFolder start).OnlyGlances := by
    refine only_bind (only_request rfl) fun reply => ?_
    rcases reply with fault | found
    · trivial
    · cases found <;> trivial
  exact only_bind hfolder fun folder => only_bind (onlyGlances_resolve folder) fun _ =>
    onlyGlances_nearestSettings _

theorem onlyGlances_locate (source : SettingsSource) : source.locate.OnlyGlances := by
  rw [SettingsSource.locate]
  split
  · trivial
  · exact only_bind (onlyGlances_hasSettings _) fun _ => trivial
  · refine only_bind (only_request rfl) fun folder => ?_
    refine only_bind (onlyGlances_findSettings _) fun found => ?_
    cases found <;> trivial

theorem only_readSettings {allowed : Request → Prop} {file : Path} (h : allowed (.read file)) :
    (readSettings file).Only allowed := by
  refine only_bind (only_read h) fun reply => ?_
  rcases reply with fault | bytes
  · cases fault <;> trivial
  · dsimp only
    split
    · trivial
    · split <;> trivial

theorem onlyReads_readSettings (file : Path) : (readSettings file).OnlyReads :=
  only_readSettings rfl

/-- The document in a file; it is empty without one. -/
def documentIn : Option Path → Program Toml.Members
  | some file => readSettings file
  | none => pure []

/-- The settings in a document, with the home folders of the world. -/
def settingsIn (root : Path) (document : Toml.Members) : Program Settings := do
  let own ← environment "HOME"
  let homes ← accounts
  match Settings.ofDocument root (homes.withOwn own) document with
  | .ok settings => return settings
  | .error fault => .raise fault

theorem load_eq (source : SettingsSource) : source.load = source.locate >>= fun (root, file) =>
    documentIn file >>= settingsIn root := by
  refine congrArg (source.locate >>= ·) (funext fun (root, file) => ?_)
  cases file <;> rfl

theorem onlyReads_documentIn (file : Option Path) : (documentIn file).OnlyReads := by
  cases file with
  | some file => exact onlyReads_readSettings file
  | none => trivial

theorem only_settingsIn {allowed : Request → Prop} (hvariable : allowed (.variable "HOME"))
    (haccounts : allowed .accounts) (root : Path) (document : Toml.Members) :
    (settingsIn root document).Only allowed := by
  refine only_bind (only_request hvariable) fun own =>
    only_bind (only_request haccounts) fun homes => ?_
  split <;> trivial

theorem onlyGlances_settingsIn (root : Path) (document : Toml.Members) :
    (settingsIn root document).OnlyGlances := by
  apply only_settingsIn <;> rfl

theorem onlyReads_load (source : SettingsSource) : source.load.OnlyReads := by
  rw [load_eq]
  exact only_bind (onlyGlances_locate source).onlyReads fun (root, file) =>
    only_bind (onlyReads_documentIn file) fun _ => (onlyGlances_settingsIn root _).onlyReads

/-! ### Translators -/

/-- The calls after failures, by induction on how many there may still be. -/
theorem inquires_askFrom {calling : Calling} (honce : calling.once.Inquires) (backoff : Backoff)
    (failed left : Nat) : (calling.askFrom backoff failed left).Inquires := by
  induction left generalizing failed with
  | zero => exact only_bind honce only_ended
  | succ left ih =>
    refine only_bind honce fun result => ?_
    cases result with
    | ok answer => trivial
    | error fault =>
      dsimp only
      split
      · exact only_bind (only_ended _) fun _ => only_bind (inquires_log _ _ _) fun _ =>
          only_bind (only_emit rfl) fun _ => ih _
      · trivial

theorem inquires_call_ask (backoff : Backoff) (call : Call) : (call.ask backoff).Inquires := by
  rw [Call.ask_eq]
  apply inquires_askFrom
  cases call <;> exact only_bind (only_request rfl) fun _ => trivial

/-- A translator all of whose answers only inquire. -/
def Translator.Inquires (translator : Translator) : Prop :=
  ∀ request notes, (translator.answer request notes).Inquires

theorem Translator.Inquires.translate {translator : Translator} (h : translator.Inquires)
    (request : Text) : (translator.translate request).Inquires := by
  have hattempts (made left : Nat) (notes : Option (List Text)) :
      (translator.attemptsFrom request made notes left).Inquires := by
    induction left generalizing made notes with
    | zero => trivial
    | succ left ih =>
      refine only_bind (inquires_translating (h request notes)) fun expression => ?_
      dsimp only
      split
      · trivial
      · exact ih _ _
  exact hattempts 0 _ none

theorem onlyReads_promptAt (path : Text) : (promptAt path).OnlyReads := by
  rw [promptAt]
  split
  · trivial
  · exact only_readText rfl

theorem inquires_requirePackage (backend : Backend) : backend.requirePackage.Inquires := by
  refine only_bind (only_request rfl) fun installed => ?_
  split <;> trivial

/-- A translator by a service differs from others in its instructions alone. -/
theorem yields_connect {property : Translator → Prop} (backend : Backend)
    (settings : TranslatorSettings)
    (h : ∀ instructions, property (backend.translator settings.model instructions)) :
    (backend.connect settings).Yields property := by
  refine yields_bind fun value => ?_
  dsimp only
  split
  case' isTrue => refine yields_bind fun _ => ?_
  all_goals
    refine yields_bind fun _ => yields_bind fun _ => yields_bind fun instructions => ?_
    cases instructions with
    | error fault => trivial
    | ok instructions => exact h instructions

/-- The translator by a service is made by inquiries, and inquires. -/
theorem inquires_connect (backend : Backend) (settings : TranslatorSettings) :
    (backend.connect settings).Inquires ∧
      (backend.connect settings).Yields Translator.Inquires := by
  constructor
  · refine only_bind (only_request rfl) fun value => ?_
    dsimp only
    split
    case' isTrue => refine only_bind trivial fun _ => ?_
    all_goals
      refine only_bind (inquires_requirePackage backend) fun _ =>
        only_bind (only_emit rfl) fun _ =>
          only_bind (onlyReads_promptAt _).inquires fun instructions => ?_
      cases instructions <;> trivial
  · apply yields_connect
    intro instructions request notes
    exact only_bind (inquires_call_ask _ _) fun _ => inquires_ofExcept _

/-- The translator that the settings select is made by inquiries, and inquires. -/
theorem inquires_translator (settings : TranslatorSettings) :
    settings.translator.Inquires ∧ settings.translator.Yields Translator.Inquires := by
  cases hprovider : settings.provider with
  | rules =>
    rw [TranslatorSettings.translator_of_rules hprovider]
    exact ⟨trivial, fun _ _ => trivial⟩
  | service service =>
    rw [TranslatorSettings.translator_of_service hprovider]
    exact inquires_connect _ settings

/-! ### Commands -/

namespace Command

theorem only_orElse {α β : Type} {allowed : Request → Prop} {stages : List Stage}
    {program : Program α} {otherwise : Failure → Program β} {next : α → Program β}
    (h : program.Only allowed) (hotherwise : ∀ failure, (otherwise failure).Only allowed)
    (hnext : ∀ value, (next value).Only allowed) :
    (orElse stages program otherwise next).Only allowed := by
  refine only_bind (only_attempt h) fun result => ?_
  rcases result with fault | value
  · cases fault with
    | failure failure =>
      dsimp only
      split
      · exact hotherwise failure
      · trivial
    | _ => trivial
  · exact hnext value

/-- The path that an argument gives, if it gives one. -/
def givenPath? : Option Text → Program (Option Path)
  | none | some [] => pure none
  | some path => do return some (← resolve (.ofText path))

theorem settings_eq (common : CommonArguments) : common.settings = givenPath? common.root >>=
    fun root => givenPath? common.file >>= fun file => SettingsSource.load ⟨root, file⟩ := rfl

theorem onlyGlances_givenPath? (path : Option Text) : (givenPath? path).OnlyGlances := by
  rw [givenPath?.eq_def]
  split
  · trivial
  · trivial
  · exact only_bind (onlyGlances_resolve _) fun _ => trivial

theorem onlyReads_settings (common : CommonArguments) : common.settings.OnlyReads := by
  rw [settings_eq]
  exact only_bind (onlyGlances_givenPath? _).onlyReads fun _ =>
    only_bind (onlyGlances_givenPath? _).onlyReads fun _ => onlyReads_load _

theorem onlyAsks_printJson (members : List (LooseText × Json.Value)) :
    (printJson members).OnlyAsks := onlyAsks_emit _

theorem onlyAsks_report (command : Text) (json : Bool) (failure : Failure) :
    (report command json failure).OnlyAsks := by
  rw [report]
  split
  · exact only_bind (onlyAsks_printJson _) fun _ => trivial
  · exact only_bind (onlyAsks_complain _) fun _ => trivial

theorem only_ofExpression {α : Type} {allowed : Request → Prop}
    (result : Except ExpressionError α) :
    (ofExpression result).Only allowed := by
  cases result <;> trivial

theorem only_evaluated {allowed : Request → Prop}
    (hlog : ∀ message, allowed (.emit (.logged .debug logSource message))) (angles : AngleUnit)
    (expression : Text) : (evaluated angles expression).Only allowed :=
  only_bind (only_ofExpression _) fun _ => only_bind (only_emit (hlog _)) fun _ =>
    only_bind (only_ofExpression _) fun _ => only_bind (only_emit (hlog _)) fun _ => trivial

theorem only_formAndValue {allowed : Request → Prop}
    (hlog : ∀ message, allowed (.emit (.logged .debug logSource message))) (showsPostfix : Bool)
    (angles : AngleUnit) (expression : Text) :
    (formAndValue showsPostfix angles expression).Only allowed := by
  rw [formAndValue]
  split
  · exact only_bind (only_ofExpression _) fun _ =>
      only_bind (only_evaluated hlog _ _) fun _ => trivial
  · exact only_bind (only_evaluated hlog _ _) fun _ => trivial

theorem inquires_translated (common : CommonArguments) (request : Text) :
    (translated common request).Inquires := by
  refine only_bind (onlyReads_settings common).inquires fun settings => ?_
  obtain ⟨htranslator, hyields⟩ := inquires_translator settings.translator
  exact only_bind_of_yields htranslator hyields fun translator h =>
    only_bind (inquires_log _ _ _) fun _ => only_bind (h.translate request) fun _ => trivial

theorem onlyAsks_printResult (form : Option Text) (result : Text) :
    (printResult form result).OnlyAsks := by
  cases form with
  | none => exact onlyAsks_print _
  | some form => exact only_bind (onlyAsks_print _) fun _ => onlyAsks_print _

theorem onlyAsks_translate (arguments : TranslateArguments) : (translate arguments).OnlyAsks := by
  have hwarn (errors : List Text) : (warnAll errors).OnlyAsks := by
    induction errors with
    | nil => trivial
    | cons error errors ih => exact only_bind (onlyAsks_complain _) fun _ => ih
  refine only_orElse (inquires_translated _ _).onlyAsks (onlyAsks_report _ _)
    fun (_, candidate) => ?_
  dsimp only
  split
  · exact only_bind (onlyAsks_printJson _) fun _ => trivial
  · refine only_bind (onlyAsks_print _) fun _ => only_bind (hwarn _) fun _ => ?_
    trivial

/-- A result that is to be kept out of the journal is not recorded. -/
theorem record_true (settings : Settings) (expression result : Text) :
    record settings true expression result = pure () := by
  rw [record, Bool.not_true, Bool.and_false, if_neg Bool.false_ne_true]

theorem onlyAsks_record (settings : Settings) (expression result : Text) :
    (record settings true expression result).OnlyAsks := by
  rw [record_true]
  trivial

theorem onlyAsks_eval {arguments : EvalArguments} (h : arguments.unrecorded = true) :
    (eval arguments).OnlyAsks := by
  refine only_orElse (onlyReads_settings _).onlyAsks (onlyAsks_report _ _) fun settings => ?_
  refine only_orElse (only_formAndValue (fun _ => rfl) _ _ _) (onlyAsks_report _ _)
    fun (form, value) => ?_
  dsimp only
  rw [h]
  refine only_bind (onlyAsks_record _ _ _) fun _ => ?_
  split
  · exact only_bind (onlyAsks_printJson _) fun _ => trivial
  · exact only_bind (onlyAsks_printResult _ _) fun _ => trivial

theorem onlyAsks_ask {arguments : AskArguments} (h : arguments.unrecorded = true) :
    (ask arguments).OnlyAsks := by
  refine only_orElse (inquires_translated _ _).onlyAsks (onlyAsks_report _ _)
    fun (settings, candidate) => ?_
  refine onlyAsks_when (onlyAsks_complain _) ?_
  refine only_orElse (only_evaluated (fun _ => rfl) _ _) (fun failure => ?_) fun value => ?_
  · exact onlyAsks_when (onlyAsks_complain _) (onlyAsks_report _ _ _)
  · rw [h]
    refine only_bind (onlyAsks_record _ _ _) fun _ => ?_
    dsimp only
    split
    · exact only_bind (onlyAsks_printJson _) fun _ => trivial
    · exact only_bind (onlyAsks_print _) fun _ => trivial

theorem only_openJournal {allowed : Request → Prop} (hread : ∀ path, allowed (.read path))
    (hlog : ∀ message, allowed (.emit (.logged .warning Journal.logSource message)))
    (settings : Settings) : (openJournal settings).Only allowed := by
  have hentries : (Journal.entriesAt settings.journalPath).Only allowed := by
    refine only_bind (only_readText (hread _)) fun reply => ?_
    rcases reply with fault | text
    · cases fault with
      | missing => trivial
      | _ => exact only_bind (only_emit (hlog _)) fun _ => trivial
    · dsimp only
      split
      · trivial
      · trivial
      · trivial
      · exact only_bind (only_emit (hlog _)) fun _ => trivial
      · exact only_bind (only_emit (hlog _)) fun _ => trivial
  exact only_bind hentries fun _ => trivial

theorem only_save {allowed : Request → Prop} {journal : Journal}
    (hfolders : allowed (.makeFolders journal.path.parent))
    (hwrite : ∀ bytes, allowed (.write journal.path bytes)) : journal.save.Only allowed := by
  have hwritten (layout : Json.Layout) : (journal.written layout).Only allowed := by
    rw [Journal.written]
    split <;> trivial
  refine only_bind (only_bind (only_request hfolders) only_ofDisk) fun reply => ?_
  cases reply with
  | error fault => trivial
  | ok =>
    refine only_bind (hwritten .compact) fun text =>
      only_bind (only_bind (only_request (hwrite _)) only_ofDisk) fun reply => ?_
    cases reply <;> trivial

theorem yields_openJournal_path (settings : Settings) :
    (openJournal settings).Yields fun journal => journal.path = settings.journalPath :=
  yields_bind fun _ => rfl

/-- A result is recorded with requests that concern the file of the journal and the folder that it is
in, and with warnings. -/
theorem only_record {allowed : Request → Prop} {settings : Settings}
    (hread : ∀ path, allowed (.read path)) (hclock : allowed .clock)
    (hfolders : allowed (.makeFolders settings.journalPath.parent))
    (hwrite : ∀ bytes, allowed (.write settings.journalPath bytes))
    (hlog : ∀ message, allowed (.emit (.logged .warning Journal.logSource message)))
    (hwarn : ∀ text, allowed (.emit (.complained text))) (unrecorded : Bool)
    (expression result : Text) : (record settings unrecorded expression result).Only allowed := by
  rw [record]
  split
  · refine only_orElse ?_ (fun failure => only_emit (hwarn _)) fun _ => trivial
    refine only_bind_of_yields (only_openJournal hread hlog settings)
      (yields_openJournal_path settings) fun journal hpath => only_bind ?_ fun _ => trivial
    refine only_bind (only_request hclock) fun time => only_bind (only_save ?_ ?_) fun _ => trivial
    · rwa [← hpath] at hfolders
    · rwa [← hpath] at hwrite
  · trivial

/-- A program that keeps a journal. -/
abbrev Keeps {α : Type} (program : Program α) : Prop :=
  program.Only fun request => request.isKeeping = true

theorem keeps_record (settings : Settings) (unrecorded : Bool) (expression result : Text) :
    Keeps (record settings unrecorded expression result) := by
  apply only_record <;> intros <;> rfl

theorem only_printEntries {allowed : Request → Prop} (hemit : ∀ event, allowed (.emit event))
    (entries : List Entry) : (printEntries entries).Only allowed := by
  induction entries with
  | nil => trivial
  | cons entry entries ih => exact only_bind (only_emit (hemit _)) fun _ => ih

theorem onlyAsks_limited (limit : EntryLimit) (entries : List Entry) :
    (limited limit entries).OnlyAsks := by
  cases limit <;> trivial

/-- Whether the journal is only shown: its entries are neither removed nor copied. -/
def HistoryArguments.lists (arguments : HistoryArguments) : Bool :=
  !arguments.clear && (arguments.destination.getD []).isEmpty

theorem onlyAsks_history {arguments : HistoryArguments} (h : arguments.lists = true) :
    (history arguments).OnlyAsks := by
  rw [HistoryArguments.lists, Bool.and_eq_true, Bool.not_eq_true'] at h
  refine only_orElse ?_ (onlyAsks_report _ _) fun shown => ?_
  · refine only_bind (onlyReads_settings _).onlyAsks fun settings =>
      only_bind (only_openJournal (fun _ => rfl) (fun _ => rfl) _) fun journal => ?_
    rw [h.1, if_neg Bool.false_ne_true]
    split
    case h_1 => trivial
    case h_2 => trivial
    case h_3 destination hne heq =>
      rw [heq] at h
      exact absurd (List.isEmpty_iff.mp h.2) hne
  · cases shown with
    | none => trivial
    | some journal =>
      refine only_bind (onlyAsks_limited _ _) fun entries => ?_
      dsimp only
      split
      · exact only_bind (onlyAsks_printJson _) fun _ => trivial
      · exact only_bind (only_printEntries (fun _ => rfl) _) fun _ => trivial

/-- A session makes the requests with which it shows things, keeps a result, and shows the history. -/
theorem only_session {allowed : Request → Prop} {session : Session}
    (hemit : ∀ event, allowed (.emit event))
    (hkeep : ∀ expression result, (session.keep expression result).Only allowed)
    (hhistory : session.showHistory.Only allowed) (hprompt : session.prompt.Only allowed)
    (angles : AngleUnit) (lines : List Text) : (session.run angles lines).Only allowed := by
  have hline (angles : AngleUnit) (expression : Text) :
      (session.evaluateLine angles expression).Only allowed :=
    only_orElse (only_evaluated (fun _ => hemit _) _ _) (fun failure => only_emit (hemit _))
      fun value => only_bind (only_emit (hemit _)) fun _ => hkeep _ _
  induction lines generalizing angles with
  | nil => exact hprompt
  | cons line lines ih =>
    refine only_bind hprompt fun _ => only_bind ?_ fun next => ?_
    · cases Line.ofText line with
      | blank => trivial
      | quit => trivial
      | angles unit => exact only_bind (only_emit (hemit _)) fun _ => trivial
      | unknown instruction => exact only_bind (only_emit (hemit _)) fun _ => trivial
      | showHistory => exact only_bind hhistory fun _ => trivial
      | expression text => exact only_bind (hline angles text) fun _ => trivial
    · cases next with
      | none => trivial
      | some angles => exact ih angles

/-- Whether a command leaves the journal alone by what its arguments say. -/
def Arguments.isQuiet : Arguments → Bool
  | .eval arguments => arguments.unrecorded
  | .ask arguments => arguments.unrecorded
  | .translate _ => true
  | .history arguments => arguments.lists
  | .session _ | .serve _ => false

theorem onlyAsks_run {arguments : Arguments} (h : arguments.isQuiet = true) :
    arguments.run.OnlyAsks := by
  refine onlyAsks_when (onlyAsks_emit _) ?_
  cases arguments with
  | eval arguments => exact onlyAsks_eval h
  | ask arguments => exact onlyAsks_ask h
  | translate arguments => exact onlyAsks_translate arguments
  | history arguments => exact onlyAsks_history h
  | session => cases h
  | serve => cases h

theorem onlyAsks_stop (stop : Stop) : stop.run.OnlyAsks := by
  cases stop with
  | help => exact only_bind (onlyAsks_emit _) fun _ => trivial
  | version => exact only_bind (onlyAsks_print _) fun _ => trivial
  | misuse reason => exact only_bind (onlyAsks_emit _) fun _ => trivial

end Command

end Reckoner
