import Reckoner.Translator.Selection

/-! Settings: the unit of angles, the journal, and who translates requests. -/

namespace Reckoner

/-- The unit in which angles are given. -/
inductive AngleUnit
  | degrees
  | radians
  deriving DecidableEq, Repr

namespace AngleUnit

/-- All units. -/
def all : List AngleUnit := [degrees, radians]

/-- The name in settings. -/
def name : AngleUnit → Text
  | degrees => "deg"
  | radians => "rad"

/-- Whether angles are in degrees. -/
def isDegrees (unit : AngleUnit) : Bool := unit = degrees

end AngleUnit

/-- The settings of a folder. -/
structure Settings where
  version : Int
  root : Path
  angles : AngleUnit
  journalEnabled : Bool
  journalPath : Path
  journalCapacity : Int
  translator : TranslatorSettings
  deriving DecidableEq, Repr

/-- The name of a file with settings. -/
def settingsName : Text := "rpncalc.toml"

end Reckoner
