import Reckoner.Settings.Basic
import Reckoner.Text.Integer
import Reckoner.Text.Lowercase
import Reckoner.Toml.Reader

/-! Settings from the members of a TOML document.  Each member has a kind that is checked, and a
default that stands for it where it is missing; members that no setting has are passed over.  The
members are checked in a fixed order, and the first that is wrong is reported. -/

namespace Reckoner

open Toml (Members Value)

/-- A fault of the settings. -/
def wrongSetting {α : Type} (text : Text) : Except Fault α := .error (.failure (.config text))

/-- A kind of setting: what a value of this name must be to be one. -/
abbrev SettingKind (α : Type) := (name : Text) → Value → Except Fault α

namespace SettingKind

/-- A setting that is a boolean. -/
def boolean : SettingKind Bool
  | _, .boolean value => .ok value
  | name, _ => wrongSetting ("Expected " ++ name ++ " to be a boolean.")

/-- A setting that is an integer. -/
def integer : SettingKind Int
  | _, .integer value => .ok value
  | name, _ => wrongSetting ("Expected " ++ name ++ " to be an integer.")

/-- A setting that is a text. -/
def text : SettingKind Text
  | _, .text value => .ok value
  | name, _ => wrongSetting ("Expected " ++ name ++ " to be a string.")

/-- A setting that is the name of one of some choices, in any case and with white space around
it. -/
def choice {α : Type} (nameOf : α → Text) (choices : List α) : SettingKind α := fun name value =>
  (text name value).bind fun given =>
    match choices.find? fun choice => nameOf choice == lower (Text.stripped given) with
    | some choice => .ok choice
    | none =>
      wrongSetting ("Invalid " ++ name ++ ": " ++ Text.quoted given ++ " (expected one of " ++
        Text.joined ", " (choices.map nameOf) ++ ").")

end SettingKind

/-- The members of a table among the members of a document; there are none in a missing one. -/
def sectionOf (document : Members) (name : Text) : Except Fault Members :=
  match document.member? name with
  | none => .ok []
  | some (.table members) => .ok members
  | some _ => wrongSetting ("Expected [" ++ name ++ "] to be a table.")

/-- The setting of a key in a section, or the default where it is missing. -/
def settingOf {α : Type} (kind : SettingKind α) (sectionName : Text) (members : Members)
    (key : Text) (default : α) : Except Fault α :=
  match members.member? key with
  | none => .ok default
  | some value => kind (sectionName ++ "." ++ key) value

/-- The version of the settings that a document has. -/
def versionOf (document : Members) : Except Fault Int :=
  match document.member? "version" with
  | none => .ok 1
  | some value =>
    (SettingKind.integer "version" value).bind fun version =>
      if version = 1 then .ok version
      else
        match Text.ofInt? version with
        | none => .error (.crash .numeralTooLong)
        | some shown =>
          wrongSetting ("Unsupported config version: " ++ shown ++ " (expected 1).")

/-- The path of the journal that is used unless the settings name one. -/
def defaultJournalPath : Text := ".rpncalc_history.json"

/-- How many entries a journal may have unless the settings say so. -/
def defaultCapacity : Int := 200

/-- The fault of a path that starts with the sign for a home folder which is unknown. -/
def homeFault (path : Path) : Crash :=
  if path.names.head?.any (·.elem (Char.ofNat 0)) then .disk .zeroInName else .noHome

/-- The path of the journal.  The sign for the home folder counts only in a path that the settings
name. -/
def journalPathOf (homes : Homes) (members : Members) : Except Fault Path := do
  match members.member? "path" with
  | none => return .ofText defaultJournalPath
  | some value =>
    let path := Path.ofText (← SettingKind.text "history.path" value)
    match path.expandHome? homes with
    | some path => return path
    | none => throw (.crash (homeFault path))

/-- The settings in a document for a folder.  A relative path of the journal is one from that
folder. -/
def Settings.ofDocument (root : Path) (homes : Homes) (document : Members) :
    Except Fault Settings := do
  let version ← versionOf document
  let evaluation ← sectionOf document "calc"
  let journal ← sectionOf document "history"
  let language ← sectionOf document "nl"
  let angles ←
    settingOf (.choice AngleUnit.name AngleUnit.all) "calc" evaluation "angle_mode" .degrees
  let journalEnabled ← settingOf .boolean "history" journal "enabled" true
  let journalPath ← journalPathOf homes journal
  let journalCapacity ← settingOf .integer "history" journal "max_entries" defaultCapacity
  let provider ← settingOf (.choice Provider.name Provider.all) "nl" language "provider" .rules
  let model ← settingOf .text "nl" language "model" provider.defaultModel
  let keyVariable ← settingOf .text "nl" language "api_key_env" provider.defaultKeyVariable
  let promptPath ← settingOf .text "nl" language "system_prompt" []
  if journalCapacity < 1 then
    wrongSetting "Invalid config: history.max_entries must be >= 1."
  else if provider != .rules && (Text.stripped model).isEmpty then
    wrongSetting ("Invalid config: nl.model is required for provider " ++
      Text.quoted provider.name ++ ".")
  else
    return {
      version, root, angles, journalEnabled, journalCapacity
      journalPath := root.join journalPath
      translator := { provider, model, keyVariable, promptPath } }

end Reckoner
