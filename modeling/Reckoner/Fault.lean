import Reckoner.Disk
import Reckoner.Failure
import Reckoner.Text.Blank
import Reckoner.Text.Quoted

/-! Whatever can end a piece of work: a failure that the calculator reports, an error that a service
raised, or a fault of the surroundings that the calculator makes no provision for. -/

namespace Reckoner

/-- An error that a service raised: its name, its words, whether it is an error of the system
below, such as a lost connection, and the status that the service answered with. -/
structure Foreign where
  name : Text
  text : Option Text
  isSystem : Bool := false
  status : Option Int := none
  deriving DecidableEq, Repr

/-- Why an output does not take a text: it has no bytes for one of its characters, or nobody reads it
any more. -/
inductive OutputFault
  | unencodable
  | closed
  deriving DecidableEq, Repr

/-- A fault of the surroundings. -/
inductive Crash
  /-- A file that has to be text is not. -/
  | undecodable (fault : Utf8.Fault)
  | disk (fault : DiskFault)
  | output (fault : OutputFault)
  | missingPackage (name : Text)
  /-- The home folder is unknown. -/
  | noHome
  /-- A numeral with more digits than are ever read or written. -/
  | numeralTooLong
  /-- Values that are nested deeper than is ever read. -/
  | tooDeep
  /-- A limit is asked for that is none. -/
  | blankLimit
  /-- A delay is asked for that is no double. -/
  | delayTooLong
  /-- A service answers with no choice at all. -/
  | noChoice
  deriving DecidableEq, Repr

namespace Crash

/-- The words of a fault of the surroundings.  Those in angle brackets stand for words that a system
chooses. -/
def message : Crash → Text
  | undecodable fault => fault.message
  | disk .zeroInName => "embedded null byte"
  | disk _ => "<os error>"
  | output .unencodable => "<encoding error>"
  | output .closed => "<os error>"
  | missingPackage name => "No module named " ++ Text.quoted name
  | noHome => "Could not determine home directory."
  | numeralTooLong => "<too many digits>"
  | tooDeep => "maximum recursion depth exceeded"
  | blankLimit => "<no order>"
  | delayTooLong => "int too large to convert to float"
  | noChoice => "list index out of range"

/-- The name of the error that a fault of the surroundings is. -/
def name : Crash → Text
  | undecodable _ => "UnicodeDecodeError"
  | disk .missing => "FileNotFoundError"
  | disk .notFolder => "NotADirectoryError"
  | disk .isFolder => "IsADirectoryError"
  | disk .alreadyThere => "FileExistsError"
  | disk .nameTooLong => "OSError"
  | disk .refused => "PermissionError"
  | disk .zeroInName | numeralTooLong => "ValueError"
  | output .unencodable => "UnicodeEncodeError"
  | output .closed => "BrokenPipeError"
  | missingPackage _ => "ModuleNotFoundError"
  | noHome => "RuntimeError"
  | tooDeep => "RecursionError"
  | blankLimit => "TypeError"
  | delayTooLong => "OverflowError"
  | noChoice => "IndexError"

/-- Whether a fault of the surroundings is an error of the system below. -/
def isSystem : Crash → Bool
  | disk .zeroInName => false
  | disk _ | output .closed => true
  | _ => false

end Crash

/-- What ends a piece of work. -/
inductive Fault
  | failure (failure : Failure)
  | foreign (error : Foreign)
  | crash (crash : Crash)
  deriving DecidableEq, Repr

/-- The words of an error that a service raised. -/
def Foreign.message (error : Foreign) : Text := error.text.getD []

/-- The words of what ended a piece of work. -/
def Fault.message : Fault → Text
  | .failure reason => reason.message
  | .foreign error => error.message
  | .crash cause => cause.message

/-- How a fault is reported by a translator: what is no failure of the calculator is one of the
translator, with the name of the error and its words. -/
def Fault.translated : Fault → Failure
  | .failure reason => reason
  | .foreign error => .translator (error.name ++ ": " ++ error.message)
  | .crash cause => .translator (cause.name ++ ": " ++ cause.message)

/-- The words of a failure, with its name where it has none. -/
def Failure.words (failure : Failure) : Text :=
  Text.stripped (wordsOr failure.stage.name failure.text)

/-- The words of an error that a service raised, with its name where it has none. -/
def Foreign.words (error : Foreign) : Text := Text.stripped (wordsOr error.name error.text)

/-- An error message with a hint on the next line, if there is one. -/
def reportWith (words : Text) (hint : Option Text) : Text :=
  "error: " ++ words ++
    match hint with
    | some hint => "\nhint: " ++ hint
    | none => []

/-- The report of a failure. -/
def Failure.report (failure : Failure) : Text := reportWith failure.words failure.hint?

/-- The report of an error that a service raised. -/
def Foreign.report (error : Foreign) : Text := reportWith error.words none

end Reckoner
