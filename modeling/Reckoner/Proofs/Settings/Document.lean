import Reckoner.Proofs.Results
import Reckoner.Settings.Document

/-! Documents that give settings.  Which ones do is said member by member, without the order in which
the members are checked, and so are the settings: each is what its member says, or the default. -/

namespace Reckoner

open Toml (Members Value)

variable {α β : Type}

/-! ### What a document says -/

namespace Toml.Value

def text? : Value → Option Text
  | text given => some given
  | _ => none

def boolean? : Value → Option Bool
  | boolean given => some given
  | _ => none

def integer? : Value → Option Int
  | integer given => some given
  | _ => none

/-- The choice whose name is given, in any case and with white space around it. -/
def choice? (nameOf : α → Text) (choices : List α) (value : Value) : Option α :=
  value.text?.bind fun given => choices.find? fun choice => nameOf choice == lower given.stripped

/-- The path that is given, with a home folder put in for the sign of one. -/
def path? (homes : Homes) (value : Value) : Option Path :=
  value.text?.bind fun given => (Path.ofText given).expandHome? homes

/-- A text is given, and it is one of these names, in any case and with white space around it. -/
def IsChoice (names : List Text) (value : Value) : Prop :=
  ∃ given, value = text given ∧ lower given.stripped ∈ names

theorem isSome_text? {value : Value} : value.text?.isSome = true ↔ ∃ given, value = text given := by
  cases value <;> simp [text?]

theorem isSome_boolean? {value : Value} :
    value.boolean?.isSome = true ↔ ∃ given, value = boolean given := by
  cases value <;> simp [boolean?]

theorem isSome_choice? {nameOf : α → Text} {choices : List α} {value : Value} :
    (value.choice? nameOf choices).isSome = true ↔ value.IsChoice (choices.map nameOf) := by
  cases value with
  | text given => simp [choice?, text?, IsChoice, List.find?_isSome]
  | _ => simp [choice?, text?, IsChoice]

end Toml.Value

namespace Toml.Members

/-- The members of the table of a name; there are none without one. -/
def tableAt (members : Members) (name : Text) : Members :=
  match members.member? name with
  | some (.table inner) => inner
  | _ => []

/-- The value of a key in a section. -/
def setting? (document : Members) (sectionName key : Text) : Option Value :=
  (document.tableAt sectionName).member? key

/-- What is read from the value of a key in a section, or the default where there is none. -/
def settingOr (document : Members) (sectionName key : Text) (read : Value → Option α)
    (default : α) : α :=
  ((document.setting? sectionName key).bind read).getD default

/-- Who translates. -/
def provider (document : Members) : Provider :=
  document.settingOr "nl" "provider" (Value.choice? Provider.name Provider.all) .rules

/-- The model of a service that translates. -/
def model (document : Members) : Text :=
  document.settingOr "nl" "model" Value.text? document.provider.defaultModel

/-- The document has no member of a wrong kind, and names a model if a service translates. -/
structure Valid (document : Members) : Prop where
  version : ∀ value ∈ document.member? "version", value = .integer 1
  sections : ∀ name ∈ (["calc", "history", "nl"] : List Text),
    ∀ value ∈ document.member? name, ∃ members, value = .table members
  angles : ∀ value ∈ document.setting? "calc" "angle_mode", value.IsChoice ["deg", "rad"]
  journalEnabled : ∀ value ∈ document.setting? "history" "enabled", ∃ given, value = .boolean given
  journalPath : ∀ value ∈ document.setting? "history" "path", ∃ given, value = .text given
  journalCapacity : ∀ value ∈ document.setting? "history" "max_entries",
    ∃ given, value = .integer given ∧ 1 ≤ given
  provider : ∀ value ∈ document.setting? "nl" "provider",
    value.IsChoice ["rules", "openai", "anthropic"]
  texts : ∀ key ∈ (["model", "api_key_env", "system_prompt"] : List Text),
    ∀ value ∈ document.setting? "nl" key, ∃ given, value = .text given
  model : document.provider = .rules ∨ document.model.stripped ≠ []

/-- If the path of the journal starts with the sign for a home folder, that folder is known. -/
def HomeKnown (homes : Homes) (document : Members) : Prop :=
  ∀ given, document.setting? "history" "path" = some (.text given) →
    ((Path.ofText given).expandHome? homes).isSome = true

/-- What a document may meet that its members being right or wrong does not tell. -/
inductive Crashes (homes : Homes) (document : Members) : Crash → Prop
  /-- A version is wrong that has too many digits to be reported. -/
  | version {given : Int} (h : document.member? "version" = some (.integer given))
      (hlong : maxIntegerDigits < (Text.ofNat given.natAbs).length) :
      Crashes homes document .numeralTooLong
  | home {given : Text} (h : document.setting? "history" "path" = some (.text given))
      (hunknown : (Path.ofText given).expandHome? homes = none) :
      Crashes homes document (homeFault (.ofText given))

end Toml.Members

/-- The settings that a document gives for a folder. -/
def Settings.described (root : Path) (homes : Homes) (document : Members) : Settings where
  version := 1
  root := root
  angles := document.settingOr "calc" "angle_mode" (Value.choice? AngleUnit.name AngleUnit.all)
    .degrees
  journalEnabled := document.settingOr "history" "enabled" Value.boolean? true
  journalPath := root.join
    (document.settingOr "history" "path" (Value.path? homes) (.ofText defaultJournalPath))
  journalCapacity := document.settingOr "history" "max_entries" Value.integer? defaultCapacity
  translator :=
    { provider := document.provider
      model := document.model
      keyVariable := document.settingOr "nl" "api_key_env" Value.text?
        document.provider.defaultKeyVariable
      promptPath := document.settingOr "nl" "system_prompt" Value.text? [] }

/-! ### Checks -/

/-- A check: its result is this value where a condition holds, and elsewhere it is a fault of the
settings or one of some crashes. -/
structure Checks (crashes : Crash → Prop) (valid : Prop) (result : Except Fault α) (value : α) :
    Prop where
  ok : valid → result = .ok value
  error : ¬valid → ∃ fault, result = .error fault ∧
    ((∃ text, fault = .failure (.config text)) ∨ ∃ crash, fault = .crash crash ∧ crashes crash)

namespace Checks

variable {crashes : Crash → Prop} {valid valid' : Prop} {result : Except Fault α} {value : α}

theorem pure (value : α) : Checks crashes True (pure value) value :=
  ⟨fun _ => rfl, fun h => absurd trivial h⟩

theorem wrong (text : Text) (value : α) : Checks crashes False (wrongSetting text) value :=
  ⟨False.elim, fun _ => ⟨_, rfl, .inl ⟨text, rfl⟩⟩⟩

theorem congr (h : Checks crashes valid result value) (hiff : valid' ↔ valid) :
    Checks crashes valid' result value :=
  ⟨fun hvalid => h.ok (hiff.mp hvalid), fun hvalid => h.error (mt hiff.mpr hvalid)⟩

theorem bind {next : α → Except Fault β} {last : β} (h : Checks crashes valid result value)
    (hnext : Checks crashes valid' (next value) last) :
    Checks crashes (valid ∧ valid') (result >>= next) last := by
  refine ⟨fun ⟨hvalid, hvalid'⟩ => ?_, fun hinvalid => ?_⟩
  · rw [h.ok hvalid]
    exact hnext.ok hvalid'
  · by_cases hvalid : valid
    · rw [h.ok hvalid]
      exact hnext.error fun hvalid' => hinvalid ⟨hvalid, hvalid'⟩
    · obtain ⟨fault, hresult, hfault⟩ := h.error hvalid
      rw [hresult]
      exact ⟨fault, rfl, hfault⟩

/-- A condition that is reported where it holds. -/
theorem guarded {c : Prop} [Decidable c] (text : Text) (h : Checks crashes valid result value) :
    Checks crashes (¬c ∧ valid) (if c then wrongSetting text else result) value := by
  by_cases hc : c
  · rw [if_pos hc]
    exact (wrong text value).congr (by simp [hc])
  · rw [if_neg hc]
    exact h.congr (by simp [hc])

/-- A check that may have no value to give. -/
theorem of_option {read : Option α} {default : α} (hok : ∀ given, read = some given → result = .ok given)
    (herror : read = none → ∃ text, result = wrongSetting text) :
    Checks crashes (read.isSome = true) result (read.getD default) := by
  cases read with
  | none =>
    obtain ⟨text, rfl⟩ := herror rfl
    exact (wrong text default).congr (by simp)
  | some given =>
    rw [hok given rfl]
    exact (pure given).congr (by simp)

end Checks

/-! ### The checks of the members -/

/-- A kind of setting takes the values from which something is read, and reports all others. -/
def SettingKind.Reads (kind : SettingKind α) (read : Value → Option α) : Prop :=
  ∀ name value, (∀ given, read value = some given → kind name value = .ok given) ∧
    (read value = none → ∃ text, kind name value = wrongSetting text)

namespace SettingKind

theorem reads_boolean : boolean.Reads Value.boolean? := by
  intro name value
  cases value with
  | boolean given => exact ⟨fun _ h => congrArg Except.ok (Option.some.inj h), nofun⟩
  | _ => exact ⟨nofun, fun _ => ⟨_, rfl⟩⟩

theorem reads_integer : integer.Reads Value.integer? := by
  intro name value
  cases value with
  | integer given => exact ⟨fun _ h => congrArg Except.ok (Option.some.inj h), nofun⟩
  | _ => exact ⟨nofun, fun _ => ⟨_, rfl⟩⟩

theorem reads_text : text.Reads Value.text? := by
  intro name value
  cases value with
  | text given => exact ⟨fun _ h => congrArg Except.ok (Option.some.inj h), nofun⟩
  | _ => exact ⟨nofun, fun _ => ⟨_, rfl⟩⟩

theorem reads_choice (nameOf : α → Text) (choices : List α) :
    (choice nameOf choices).Reads (Value.choice? nameOf choices) := by
  intro name value
  cases value with
  | text given =>
    rw [choice, text, Except.bind]
    dsimp only [Value.choice?, Value.text?, Option.bind_some]
    cases choices.find? fun choice => nameOf choice == lower given.stripped with
    | none => exact ⟨nofun, fun _ => ⟨_, rfl⟩⟩
    | some choice => exact ⟨fun _ h => congrArg Except.ok (Option.some.inj h), nofun⟩
  | _ => exact ⟨nofun, fun _ => ⟨_, rfl⟩⟩

end SettingKind

section Document

variable {crashes : Crash → Prop} {homes : Homes} {document : Members} {name key : Text}

theorem checks_sectionOf (document : Members) (name : Text) :
    Checks crashes (∀ value ∈ document.member? name, ∃ members, value = .table members)
      (sectionOf document name) (document.tableAt name) := by
  rw [sectionOf, Members.tableAt]
  cases document.member? name with
  | none => exact (Checks.pure _).congr (by simp)
  | some value =>
    cases value with
    | table members => exact (Checks.pure _).congr (by simp)
    | _ => exact (Checks.wrong _ _).congr (by simp)

/-- The setting of a key, in a section that has been found. -/
theorem checks_settingOf {kind : SettingKind α} {read : Value → Option α} (h : kind.Reads read)
    (document : Members) (sectionName key : Text) (default : α) :
    Checks crashes (∀ value ∈ document.setting? sectionName key, (read value).isSome = true)
      (settingOf kind sectionName (document.tableAt sectionName) key default)
      (document.settingOr sectionName key read default) := by
  rw [settingOf, Members.settingOr, Members.setting?]
  cases (document.tableAt sectionName).member? key with
  | none => exact (Checks.pure _).congr (by simp)
  | some value =>
    obtain ⟨hok, herror⟩ := h (sectionName ++ "." ++ key) value
    exact (Checks.of_option hok herror).congr (by simp)

theorem checks_versionOf (homes : Homes) (document : Members) :
    Checks (document.Crashes homes) (∀ value ∈ document.member? "version", value = .integer 1)
      (versionOf document) 1 := by
  rw [versionOf]
  cases hversion : document.member? "version" with
  | none => exact (Checks.pure _).congr (by simp)
  | some value =>
    cases value with
    | integer given =>
      dsimp only [SettingKind.integer, Except.bind]
      by_cases hone : given = 1
      · rw [if_pos hone, hone]
        exact (Checks.pure _).congr (by simp)
      · rw [if_neg hone, Text.ofInt?]
        refine ⟨fun h => absurd (Value.integer.inj (h _ rfl)) hone, fun _ => ?_⟩
        by_cases hlong : maxIntegerDigits < (Text.ofNat given.natAbs).length
        · rw [if_pos hlong]
          exact ⟨_, rfl, .inr ⟨_, rfl, .version hversion hlong⟩⟩
        · rw [if_neg hlong]
          exact ⟨_, rfl, .inl ⟨_, rfl⟩⟩
    | _ => exact (Checks.wrong _ _).congr (by simp)

theorem checks_journalPathOf (homes : Homes) (document : Members) :
    Checks (document.Crashes homes)
      ((∀ value ∈ document.setting? "history" "path", ∃ given, value = .text given) ∧
        document.HomeKnown homes)
      (journalPathOf homes (document.tableAt "history"))
      (document.settingOr "history" "path" (Value.path? homes) (.ofText defaultJournalPath)) := by
  rw [journalPathOf, Members.settingOr, Members.HomeKnown]
  cases hpath : document.setting? "history" "path" with
  | none =>
    rw [Members.setting?] at hpath
    rw [hpath]
    exact (Checks.pure _).congr (by simp)
  | some value =>
    have hmember := hpath
    rw [Members.setting?] at hmember
    rw [hmember]
    cases value with
    | text given =>
      dsimp only [Option.bind_some, Value.path?, Value.text?]
      rw [show SettingKind.text "history.path" (.text given) = .ok given from rfl]
      dsimp only [bind, Except.bind]
      cases hhome : (Path.ofText given).expandHome? homes with
      | none =>
        refine ⟨fun h => ?_, fun _ => ⟨_, rfl, .inr ⟨_, rfl, .home hpath hhome⟩⟩⟩
        have hsome := h.2 given rfl
        rw [hhome] at hsome
        cases hsome
      | some path => exact (Checks.pure _).congr (by simp [hhome])
    | _ => exact (Checks.wrong _ _).congr (by simp)

/-- The number of entries is checked in two places. -/
theorem capacity_iff :
    (∀ value ∈ document.setting? "history" "max_entries",
        ∃ given, value = .integer given ∧ 1 ≤ given) ↔
      (∀ value ∈ document.setting? "history" "max_entries", value.integer?.isSome = true) ∧
        ¬document.settingOr "history" "max_entries" Value.integer? defaultCapacity < 1 := by
  rw [Members.settingOr]
  cases document.setting? "history" "max_entries" with
  | none => simp [defaultCapacity]
  | some value => cases value <;> simp [Value.integer?]

theorem model_iff : document.provider = .rules ∨ document.model.stripped ≠ [] ↔
    ¬(document.provider != .rules && document.model.stripped.isEmpty) = true := by
  cases document.provider <;> cases document.model.stripped <;> simp

/-- Settings are read from a document just if it is valid, and each is what its member says or the
default. -/
theorem checks_ofDocument (root : Path) (homes : Homes) (document : Members) :
    Checks (document.Crashes homes) (document.Valid ∧ document.HomeKnown homes)
      (Settings.ofDocument root homes document) (.described root homes document) := by
  refine Checks.congr ((checks_versionOf homes document).bind <|
    (checks_sectionOf document "calc").bind <| (checks_sectionOf document "history").bind <|
    (checks_sectionOf document "nl").bind <|
    (checks_settingOf (SettingKind.reads_choice _ _) document "calc" "angle_mode" _).bind <|
    (checks_settingOf SettingKind.reads_boolean document "history" "enabled" _).bind <|
    (checks_journalPathOf homes document).bind <|
    (checks_settingOf SettingKind.reads_integer document "history" "max_entries" _).bind <|
    (checks_settingOf (SettingKind.reads_choice _ _) document "nl" "provider" _).bind <|
    (checks_settingOf SettingKind.reads_text document "nl" "model" _).bind <|
    (checks_settingOf SettingKind.reads_text document "nl" "api_key_env" _).bind <|
    (checks_settingOf SettingKind.reads_text document "nl" "system_prompt" _).bind <|
    .guarded _ <| .guarded _ <| .pure _) ?_
  simp only [Value.isSome_choice?, Value.isSome_boolean?, Value.isSome_text?]
  constructor
  · rintro ⟨h, hhome⟩
    obtain ⟨hcapacity, hleast⟩ := capacity_iff.mp h.journalCapacity
    refine ⟨h.version, h.sections _ ?_, h.sections _ ?_, h.sections _ ?_, h.angles, h.journalEnabled,
      ⟨h.journalPath, hhome⟩, hcapacity, h.provider, h.texts _ ?_, h.texts _ ?_, h.texts _ ?_,
      hleast, model_iff.mp h.model, trivial⟩ <;>
    decide
  · rintro ⟨version, calc', journal, language, angles, journalEnabled, ⟨journalPath, hhome⟩,
      hcapacity, provider, model, keyVariable, prompt, hleast, hmodel, -⟩
    exact ⟨{
      version, angles, journalEnabled, journalPath, provider
      sections := List.forall_mem_cons.mpr
        ⟨calc', List.forall_mem_cons.mpr ⟨journal, List.forall_mem_singleton.mpr language⟩⟩
      journalCapacity := capacity_iff.mpr ⟨hcapacity, hleast⟩
      texts := List.forall_mem_cons.mpr
        ⟨model, List.forall_mem_cons.mpr ⟨keyVariable, List.forall_mem_singleton.mpr prompt⟩⟩
      model := model_iff.mpr hmodel }, hhome⟩

end Document

end Reckoner
