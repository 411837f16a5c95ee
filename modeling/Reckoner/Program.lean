import Reckoner.Fault
import Reckoner.Service
import Reckoner.Text.Lines
import Reckoner.Text.Loose

/-! Programs: what a command does, as a tree of requests to its surroundings.  Each request has a
type of replies, and the program goes on with the reply.  What a program does in a given world is a
function of the two, and a machine performs the same requests one by one. -/

namespace Reckoner

open Utf8 (Bytes)

/-- How grave a log record is. -/
inductive Level
  | debug
  | warning
  deriving DecidableEq, Repr

/-- What can be seen of a program from outside, apart from files. -/
inductive Event
  | printed (text : LooseText)
  | complained (text : Text)
  /-- From here on log records are shown in full. -/
  | verbose
  | logged (level : Level) (source message : Text)
  | connected (key : Text)
  | called (call : Call)
  | slept (seconds : Double)
  deriving DecidableEq, Repr

/-- A request to the surroundings. -/
inductive Request
  | isFile (path : Path)
  | read (path : Path)
  | write (path : Path) (bytes : Bytes)
  | makeFolders (path : Path)
  | remove (path : Path)
  /-- The folder in which relative paths start. -/
  | folder
  | enter (path : Path)
  /-- An environment variable. -/
  | variable (name : Text)
  /-- The time in milliseconds. -/
  | clock
  /-- All that is typed. -/
  | input
  | hasPackage (name : Text)
  | call (call : Call)
  | emit (event : Event)
  /-- The home folders that the accounts of the machine have. -/
  | accounts
  /-- Offers tools to other programs until they have no more use for them.  The reply is what is
  printed meanwhile. -/
  | serve (tools : List Text)

/-- The replies to a request. -/
def Request.Reply : Request → Type
  | isFile _ => Except DiskFault Bool
  | read _ => Except DiskFault Bytes
  | write .. | makeFolders _ | remove _ | enter _ => Except DiskFault Unit
  | folder => Place
  | «variable» _ => Option Text
  | clock => Int
  | input => Text
  | hasPackage _ => Bool
  | call asked => Except Fault asked.Response
  | emit _ => Except OutputFault Unit
  | accounts => Homes
  | serve _ => LooseText

/-- A program that ends with a value or with a fault. -/
inductive Program (α : Type) : Type
  | done (value : α)
  | raise (fault : Fault)
  | ask (request : Request) (next : request.Reply → Program α)

namespace Program

variable {α β : Type}

/-- The program that goes on with `next` after `program`. -/
def andThen (program : Program α) (next : α → Program β) : Program β :=
  match program with
  | done value => next value
  | raise fault => raise fault
  | ask request more => ask request fun reply => (more reply).andThen next

instance : Monad Program where
  pure := done
  bind := andThen

/-- The program that ends with the fault of `program` instead of stopping there. -/
def attempt : Program α → Program (Except Fault α)
  | done value => done (.ok value)
  | raise fault => done (.error fault)
  | ask request more => ask request fun reply => (more reply).attempt

/-- The program that keeps what `program` prints and prints nothing. -/
def capture (kept : LooseText) : Program α → Program (α × LooseText)
  | done value => done (value, kept)
  | raise fault => raise fault
  | ask (.emit (.printed text)) more => (more (.ok ())).capture (kept ++ text)
  | ask request more => ask request fun reply => (more reply).capture kept

/-- The program of one request. -/
def request (r : Request) : Program r.Reply := ask r done

/-- Ends with a failure. -/
def fail (failure : Failure) : Program α := raise (.failure failure)

/-- The value, if there is one. -/
def ofExcept : Except Failure α → Program α
  | .ok value => done value
  | .error failure => fail failure

/-- The program that ends so. -/
def ended : Except Fault α → Program α
  | .ok value => done value
  | .error fault => raise fault

/-- A reply of the disk.  A name that no system call accepts is beyond what a program provides
for. -/
def ofDisk : Except DiskFault α → Program (Except DiskFault α)
  | .error .zeroInName => raise (.crash (.disk .zeroInName))
  | reply => done reply

/-- Whether a path leads to a file. -/
def isFile (path : Path) : Program (Except DiskFault Bool) := request (.isFile path)

/-- The bytes of a file. -/
def read (path : Path) : Program (Except DiskFault Bytes) := request (.read path) >>= ofDisk

/-- Writes a file. -/
def write (path : Path) (bytes : Bytes) : Program (Except DiskFault Unit) :=
  request (.write path bytes) >>= ofDisk

/-- Makes a folder and those on the way to it. -/
def makeFolders (path : Path) : Program (Except DiskFault Unit) :=
  request (.makeFolders path) >>= ofDisk

/-- Removes a file, if it is there. -/
def remove (path : Path) : Program (Except DiskFault Unit) := request (.remove path) >>= ofDisk

/-- Makes the folder at a path the one in which relative paths start. -/
def enter (path : Path) : Program Unit := do
  match ← request (.enter path) with
  | .ok () => return ()
  | .error fault => raise (.crash (.disk fault))

/-- The folder in which relative paths start. -/
def folder : Program Place := request .folder

/-- An environment variable. -/
def environment (name : Text) : Program (Option Text) := request (.variable name)

/-- The time in milliseconds. -/
def clock : Program Int := request .clock

/-- A reply of the output.  One that does not take what is shown is beyond what a program provides
for. -/
def ofOutput : Except OutputFault Unit → Program Unit
  | .ok () => done ()
  | .error fault => raise (.crash (.output fault))

/-- Shows something. -/
def emit (event : Event) : Program Unit := request (.emit event) >>= ofOutput

/-- Prints a line. -/
def print (line : LooseText) : Program Unit := emit (.printed (line ++ "\n"))

/-- Prints a line where errors are printed. -/
def complain (line : Text) : Program Unit := emit (.complained (line ++ ['\n']))

/-- Shows log records in full from here on. -/
def showLog : Program Unit := emit .verbose

/-- All that is typed. -/
def input : Program Text := request .input

/-- Offers tools to other programs. -/
def serve (tools : List Text) : Program Unit := do emit (.printed (← request (.serve tools)))

/-- The home folders that the accounts of the machine have. -/
def accounts : Program Homes := request .accounts

/-- Logs a record. -/
def log (level : Level) (source message : Text) : Program Unit :=
  emit (.logged level source message)

/-- The absolute path without two dots. -/
def resolve (path : Path) : Program Path := do
  if path.hasZero then raise (.crash (.disk .zeroInName))
  return path.resolved (← folder)

/-- The text of these bytes in UTF-8, with line feeds alone at the ends of its lines. -/
def decodeText (bytes : Bytes) : Program Text :=
  match Utf8.decode bytes with
  | .ok text => done text.unifyLineFeeds
  | .error fault => raise (.crash (.undecodable fault))

/-- The text of a file. -/
def readText (path : Path) : Program (Except DiskFault Text) := do
  match ← read path with
  | .ok bytes => return .ok (← decodeText bytes)
  | .error fault => return .error fault

/-- What comes of a call of a service: its response, or the error that the call ends with. -/
def call (asked : Call) : Program (Except Fault asked.Response) := request (.call asked)

/-- Whether a package is installed. -/
def hasPackage (name : Text) : Program Bool := request (.hasPackage name)

end Program

end Reckoner
