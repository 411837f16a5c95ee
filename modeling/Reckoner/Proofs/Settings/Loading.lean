import Mathlib.Control.Monad.Basic
import Reckoner.Proofs.Program.Asking
import Reckoner.Proofs.Settings.Document
import Reckoner.Proofs.Text.Utf8

/-! Loading settings from a file.  Once the file has been found and read, what comes of it depends on
the members of its document that settings have, and on the home folders of the world. -/

namespace Reckoner

open Program
open Toml (Members Value)

variable {α : Type}

/-! ### Members that settings have -/

namespace Toml

/-- The keys of each section. -/
def sectionKeys : List (Text × List Text) :=
  [("calc", ["angle_mode"]), ("history", ["enabled", "path", "max_entries"]),
    ("nl", ["provider", "model", "api_key_env", "system_prompt"])]

/-- The members whose names have a change, with their values changed. -/
def Members.selected (change? : Text → Option (Value → Value)) (members : Members) : Members :=
  members.filterMap fun member =>
    (change? member.1).map fun change => (member.1, change member.2)

/-- The members with these names. -/
def Members.only (names : List Text) (members : Members) : Members :=
  members.selected fun name => if names.elem name then some id else none

/-- A table with no members but those with these names. -/
def Value.only (names : List Text) : Value → Value
  | .table members => .table (Members.only names members)
  | value => value

/-- The members that settings have. -/
def Members.known (document : Members) : Members :=
  document.selected fun name =>
    if name = "version".toList then some id else (sectionKeys.lookup name).map Value.only

variable {members : Members} {name : Text}

theorem selected_cons (change? : Text → Option (Value → Value)) (name : Text) (value : Value)
    (members : Members) : Members.selected change? ((name, value) :: members) =
      match change? name with
      | none => Members.selected change? members
      | some change => (name, change value) :: Members.selected change? members := by
  rw [Members.selected, List.filterMap_cons]
  cases change? name <;> rfl

theorem member?_selected (change? : Text → Option (Value → Value)) (members : Members)
    (name : Text) : (members.selected change?).member? name =
      (change? name).bind fun change => (members.member? name).map change := by
  rw [Members.member?, Members.member?]
  induction members with
  | nil => cases change? name <;> rfl
  | cons member members ih =>
    obtain ⟨other, value⟩ := member
    rw [selected_cons, List.lookup_cons]
    by_cases hname : name = other
    · subst hname
      cases hchange : change? name with
      | none => rw [ih, hchange]; rfl
      | some change =>
        dsimp only
        rw [List.lookup_cons, beq_self_eq_true]
        rfl
    · rw [beq_eq_false_iff_ne.mpr hname]
      cases change? other with
      | none => exact ih
      | some change =>
        dsimp only
        rw [List.lookup_cons, beq_eq_false_iff_ne.mpr hname]
        exact ih

theorem member?_only {names : List Text} (h : name ∈ names) :
    (members.only names).member? name = members.member? name := by
  rw [Members.only, member?_selected, if_pos (List.elem_iff.mpr h)]
  exact Option.map_id'

end Toml

section Known

variable {kind : SettingKind α} {document members : Members} {sectionName key : Text}
  {keys : List Text}

theorem versionOf_known (document : Members) : versionOf document.known = versionOf document := by
  have hmember : document.known.member? "version" = document.member? "version" := by
    rw [Members.known, Toml.member?_selected, if_pos rfl]
    exact Option.map_id'
  rw [versionOf, versionOf, hmember]

theorem sectionOf_known (hname : sectionName ≠ "version")
    (hkeys : Toml.sectionKeys.lookup sectionName = some keys) (document : Members) :
    sectionOf document.known sectionName = Members.only keys <$> sectionOf document sectionName := by
  have hmember : document.known.member? sectionName =
      (document.member? sectionName).map (Value.only keys) := by
    rw [Members.known, Toml.member?_selected, if_neg hname, hkeys]
    rfl
  rw [sectionOf, sectionOf, hmember]
  cases hvalue : document.member? sectionName with
  | none => rfl
  | some value => cases value <;> rfl

theorem settingOf_only (h : key ∈ keys) (default : α) :
    settingOf kind sectionName (members.only keys) key default =
      settingOf kind sectionName members key default := by
  rw [settingOf, settingOf, Toml.member?_only h]

theorem journalPathOf_only (h : "path".toList ∈ keys) (homes : Homes) (members : Members) :
    journalPathOf homes (members.only keys) = journalPathOf homes members := by
  rw [journalPathOf, journalPathOf, Toml.member?_only h]

/-- Members that no setting has make no difference, not even to what is reported. -/
theorem ofDocument_known (root : Path) (homes : Homes) (document : Members) :
    Settings.ofDocument root homes document.known = Settings.ofDocument root homes document := by
  have hcalc := @sectionOf_known "calc" _ (by decide) rfl document
  have hhistory := @sectionOf_known "history" _ (by decide) rfl document
  have hlanguage := @sectionOf_known "nl" _ (by decide) rfl document
  rw [Settings.ofDocument, versionOf_known, hcalc, hhistory, hlanguage]
  simp (disch := decide) only [bind_map_left, settingOf_only, journalPathOf_only]
  rfl

end Known

/-! ### Loading -/

/-- The home folders that are known in a world: those of the accounts, where the environment may name
another for whoever runs the program. -/
def World.homes (world : World) : Homes :=
  world.accounts.withOwn (world.environment.lookup "HOME".toList)

section Loading

variable {source : SettingsSource} {world : World} {root file : Path} {document : Members}

theorem run_settingsIn (root : Path) (document : Members) (world : World) :
    (settingsIn root document).run world =
      (Settings.ofDocument root world.homes document, world) := by
  have hown : (environment "HOME").run world =
      (.ok (world.environment.lookup "HOME".toList), world) := rfl
  have haccounts : accounts.run world = (.ok world.accounts, world) := rfl
  rw [settingsIn, run_bind_of_ok hown, run_bind_of_ok haccounts, World.homes]
  cases Settings.ofDocument root _ document <;> rfl

/-- Once a file has been found and read, settings are those in its document. -/
theorem run_load (hlocate : (source.locate.run world).1 = .ok (root, some file))
    (hread : ((readSettings file).run world).1 = .ok document) :
    (source.load.run world).1 = Settings.ofDocument root world.homes document := by
  have hlocated : source.locate.run world = (.ok (root, some file), world) :=
    Prod.ext hlocate ((onlyGlances_locate source).onlyReads.run_snd world)
  have hdocument : (documentIn (some file)).run world = (.ok document, world) :=
    Prod.ext hread ((onlyReads_readSettings file).run_snd world)
  rw [load_eq, run_bind_of_ok hlocated]
  change (Program.run (documentIn (some file) >>= settingsIn root) world).1 = _
  rw [run_bind_of_ok hdocument, run_settingsIn]

/-- A file whose text is a document can be read. -/
theorem run_readSettings {s : Text}
    (hfile : world.disk.read world.folder file = .ok (Utf8.encode s))
    (h : Toml.read s = .ok document) : ((readSettings file).run world).1 = .ok document := by
  have hbytes : (Program.read file).run world = (.ok (.ok (Utf8.encode s)), world) := by
    change (ofDisk (world.disk.read world.folder file)).run world = _
    rw [hfile]
    rfl
  rw [readSettings, run_bind_of_ok hbytes]
  dsimp only
  rw [Utf8.decode_encode]
  dsimp only
  rw [h]
  rfl

theorem withoutSlashes_prefix (s : Text) : Path.withoutSlashes s <+: s := by
  have h := List.reverse_prefix.mpr (List.dropWhile_suffix (· == '/') : _ <:+ s.reverse)
  rwa [List.reverse_reverse] at h

/-- The own home folder is enough for a path that names no account. -/
theorem isSome_expandHome? {homes : Homes} {home : Text} {path : Path}
    (hown : homes.own = some home) (hhome : home.head? ≠ some '~')
    (hpath : ∀ c owner names, path ≠ ⟨0, ('~' :: c :: owner) :: names⟩) :
    (path.expandHome? homes).isSome = true := by
  rw [Path.expandHome?]
  by_cases hstarts : path.startsHome = true
  · obtain ⟨slashes, names⟩ := path
    obtain ⟨hrelative, hnames⟩ := Bool.and_eq_true_iff.mp hstarts
    obtain ⟨name, hname, hsign⟩ := (Option.any_eq_true _ _).mp hnames
    obtain ⟨owner, rfl⟩ : ∃ owner, name = '~' :: owner := List.head?_eq_some_iff.mp (by simpa using hsign)
    obtain ⟨names, rfl⟩ := List.head?_eq_some_iff.mp hname
    obtain rfl : slashes = 0 := by simpa [Path.isAbsolute] using hrelative
    cases owner with
    | cons c owner => exact absurd rfl (hpath c owner names)
    | nil =>
      have hfolder : homes.of? [] = some home := hown
      rw [if_neg (by simp [hstarts])]
      split
      case h_2 hother => exact absurd rfl (hother [] names)
      case h_1 owner more heq =>
        obtain rfl : owner = [] := (List.cons.inj (List.cons.inj heq).1).2.symm
        rw [hfolder, Option.map_some]
        split
        case h_1 heq => cases heq
        case h_2 rest heq =>
          obtain ⟨more, hmore⟩ := Option.some.inj heq ▸ withoutSlashes_prefix home
          exact absurd (hmore ▸ rfl) hhome
        case h_3 => rfl
  · rw [if_pos (by simp [hstarts])]
    rfl

/-- Settings are loaded from a document that has been read just if it is valid and, if the path of the
journal starts with the sign for a home folder, that folder is known; each setting is then what its
member says, or the default.  Otherwise loading ends with a failure of the settings, unless a wrong
version has more digits than are ever written, or a home folder is not known.  Where no account is
named, the own home folder is enough.  Members that no setting has make no difference. -/
theorem load_valid (hlocate : (source.locate.run world).1 = .ok (root, some file))
    (hread : ((readSettings file).run world).1 = .ok document) :
    (∀ settings, (source.load.run world).1 = .ok settings ↔ document.Valid ∧
      document.HomeKnown world.homes ∧ settings = .described root world.homes document) ∧
    (∀ fault, (source.load.run world).1 = .error fault →
      (∃ text, fault = .failure (.config text)) ∨
        ∃ crash, fault = .crash crash ∧ document.Crashes world.homes crash) ∧
    ((∃ home, world.homes.own = some home ∧ home.head? ≠ some '~') →
      (∀ given, document.setting? "history" "path" = some (.text given) →
        ∀ c owner names, Path.ofText given ≠ ⟨0, ('~' :: c :: owner) :: names⟩) →
      document.HomeKnown world.homes) ∧
    (source.load.run world).1 = ((settingsIn root document.known).run world).1 := by
  have h := checks_ofDocument root world.homes document
  rw [run_load hlocate hread, run_settingsIn, ofDocument_known]
  refine ⟨fun settings => ⟨fun hok => ?_, fun ⟨hvalid, hhome, heq⟩ => ?_⟩, fun fault herror => ?_,
    fun ⟨home, hown, hhome⟩ hpath given hgiven => isSome_expandHome? hown hhome (hpath given hgiven),
    rfl⟩
  · by_cases hvalid : document.Valid ∧ document.HomeKnown world.homes
    · rw [h.ok hvalid] at hok
      exact ⟨hvalid.1, hvalid.2, (Except.ok.inj hok).symm⟩
    · obtain ⟨fault, hfault, -⟩ := h.error hvalid
      rw [hfault] at hok
      cases hok
  · rw [heq, h.ok ⟨hvalid, hhome⟩]
  · by_cases hvalid : document.Valid ∧ document.HomeKnown world.homes
    · rw [h.ok hvalid] at herror
      cases herror
    · obtain ⟨fault', hfault, hkind⟩ := h.error hvalid
      rw [hfault] at herror
      obtain rfl := Except.error.inj herror
      exact hkind

end Loading

/-! A document with names in any case, and members that no setting has. -/

def looseText : Text :=
  "[nl]\nprovider = ' OpenAI\t'\n[history]\npath = '~/h'\nmax_entries = 0x10\n[other]\nnl = 1"

def looseWorld : World where
  disk := ⟨[([settingsName], .file (Utf8.encode looseText))]⟩
  environment := [("HOME", "/u/")]

def looseSettings : Settings where
  version := 1
  root := .ofNames []
  angles := .degrees
  journalEnabled := true
  journalPath := .ofNames [['u'], ['h']]
  journalCapacity := 16
  translator := ⟨.service .openai, "gpt-4.1-mini", "OPENAI_API_KEY", []⟩

theorem load_valid_loose : ∃ document,
    ((SettingsSource.mk none none).locate.run looseWorld).1 =
        .ok (.ofNames [], some (.ofNames [settingsName])) ∧
      ((readSettings (.ofNames [settingsName])).run looseWorld).1 = .ok document ∧
      document.Valid ∧ looseSettings = .described (.ofNames []) looseWorld.homes document := by
  have hlocate : ((SettingsSource.mk none none).locate.run looseWorld).1 =
      .ok (.ofNames [], some (.ofNames [settingsName])) := by decide +kernel
  have hload : ((SettingsSource.mk none none).load.run looseWorld).1 = .ok looseSettings := by
    decide +kernel
  obtain ⟨document, hdocument, -⟩ :=
    map_eq_ok (show (Toml.read looseText).map (fun _ => ()) = .ok () by decide +kernel)
  have hfile : looseWorld.disk.read looseWorld.folder (.ofNames [settingsName]) =
      .ok (Utf8.encode looseText) := rfl
  have hread := run_readSettings hfile hdocument
  obtain ⟨hvalid, -, hsettings⟩ := ((load_valid hlocate hread).1 looseSettings).mp hload
  exact ⟨document, hlocate, hread, hvalid, hsettings⟩

example : ((SettingsSource.mk none none).load.run
    { looseWorld with environment := [], accounts := { own := some "/u/" } }).1 =
      .ok looseSettings := by
  decide +kernel

/-! A version that is read, since its digits are not decimal ones, but is too long to be reported. -/

def longVersion : Text := "version = 0x".toList ++ List.replicate 3572 'f'

def longVersionWorld : World where
  disk := ⟨[([settingsName], .file (Utf8.encode longVersion))]⟩

theorem not_load_valid : ∃ document,
    ((readSettings (.ofNames [settingsName])).run longVersionWorld).1 = .ok document ∧
      ¬document.Valid ∧ document.HomeKnown longVersionWorld.homes ∧
      ((SettingsSource.mk none none).load.run longVersionWorld).1 =
        .error (.crash .numeralTooLong) := by
  have hlocate : ((SettingsSource.mk none none).locate.run longVersionWorld).1 =
      .ok (.ofNames [], some (.ofNames [settingsName])) := by decide +kernel
  obtain ⟨document, hdocument, hcrash⟩ := map_eq_ok (show (Toml.read longVersion).map
    (fun document => ((document.setting? "history" "path").isNone,
      Settings.ofDocument (.ofNames []) longVersionWorld.homes document)) =
    .ok (true, .error (.crash .numeralTooLong)) by decide +kernel)
  obtain ⟨hnone, hcrash⟩ := Prod.mk.inj hcrash
  have hfile : longVersionWorld.disk.read longVersionWorld.folder (.ofNames [settingsName]) =
      .ok (Utf8.encode longVersion) := rfl
  have hread := run_readSettings hfile hdocument
  have hhome : document.HomeKnown longVersionWorld.homes := by
    intro given hgiven
    rw [hgiven] at hnone
    cases hnone
  refine ⟨document, hread, fun hvalid => ?_, hhome, (run_load hlocate hread).trans hcrash⟩
  rw [(checks_ofDocument _ _ document).ok ⟨hvalid, hhome⟩] at hcrash
  cases hcrash

end Reckoner
