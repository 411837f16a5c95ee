import Reckoner.Settings.Document

/-! Finding settings.  Unless a file is named, settings are looked for in the folder that is named,
or else in the folder where the program runs and then in each folder around it. -/

namespace Reckoner

/-- The file with settings in a folder. -/
def settingsFile (folder : Path) : Path := folder.child settingsName

/-- Whether a folder has a file with settings. -/
def hasSettings (folder : Path) : Program Bool := do
  match ← Program.isFile (settingsFile folder) with
  | .ok found => return found
  | .error fault => .raise (.crash (.disk fault))

/-- The nearest folder with settings, starting with the one that has these names in reverse order
and going up. -/
def nearestSettings : (reversed : List Text) → Program (Option Path)
  | [] => return if ← hasSettings (.ofNames []) then some (.ofNames []) else none
  | name :: above => do
    let folder := Path.ofNames (name :: above).reverse
    if ← hasSettings folder then return some folder else nearestSettings above

/-- The folder in which a search starts: that of a file, and that around a name that is too long for
there to be anything. -/
def searchFolder (start : Path) : Program Path := do
  match ← Program.isFile start with
  | .ok false => return start
  | .ok true | .error _ => return start.parent

/-- The nearest folder with settings at a path or above. -/
def findSettings (start : Path) : Program (Option Path) := do
  let folder ← Program.resolve (← searchFolder start)
  nearestSettings folder.names.reverse

/-- What stands for the words about a malformed document in a message. -/
def malformedDocument : Text := "<toml error>"

/-- The members of the document in a file. -/
def readSettings (file : Path) : Program Toml.Members := do
  match ← Program.read file with
  | .error .missing =>
    Program.fail (.config ("Missing " ++ settingsName ++ " at: " ++ file.text))
  | .error _ => Program.fail (.config ("Failed reading config file: " ++ file.text))
  | .ok bytes =>
    match Utf8.decode bytes with
    | .error _ => Program.fail (.config ("Config is not valid UTF-8: " ++ file.text))
    | .ok text =>
      match Toml.read text with
      | .ok members => return members
      | .error .numeralTooLong => .raise (.crash .numeralTooLong)
      | .error .tooDeep => .raise (.crash .tooDeep)
      | .error .malformed =>
        Program.fail (.config ("Invalid TOML in " ++ file.text ++ ": " ++ malformedDocument))

/-- Where settings are looked for: a folder and a file, each of which may be named. -/
structure SettingsSource where
  root : Option Path
  file : Option Path

namespace SettingsSource

/-- The folder of the settings and the file with them, if there is one. -/
def locate (source : SettingsSource) : Program (Path × Option Path) := do
  match source.file, source.root with
  | some file, root => return (root.getD file.parent, some file)
  | none, some root => return (root, if ← hasSettings root then some (settingsFile root) else none)
  | none, none =>
    let folder := Path.ofNames (← Program.folder)
    match ← findSettings folder with
    | some root => return (root, some (settingsFile root))
    | none => return (folder, none)

/-- The settings from a source; without a file all settings have their defaults. -/
def load (source : SettingsSource) : Program Settings := do
  let (root, file) ← source.locate
  let document ← match file with
    | some file => readSettings file
    | none => pure []
  let own ← Program.environment "HOME"
  let homes ← Program.accounts
  match Settings.ofDocument root (homes.withOwn own) document with
  | .ok settings => return settings
  | .error fault => .raise fault

end SettingsSource

end Reckoner
