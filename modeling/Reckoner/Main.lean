import Reckoner.Command.Run
import Reckoner.Output

/-! The program on a machine: the requests of a command are performed one by one.  A machine has no
connection to a service, so a call fails as one without a connection does. -/

namespace Reckoner.Machine

open Utf8 (Bytes)

/-- What a machine remembers between requests: the folder in which relative paths start, and whether
the log is shown in full. -/
structure State where
  folder : Place
  verbose : Bool

/-- The string of a path taken from the folder in which relative paths start. -/
def pathString (state : State) (path : Path) : String :=
  String.ofList ((Path.ofNames state.folder).join path).text

/-- The fault for an error of the system. -/
def diskFault : IO.Error → DiskFault
  | .noFileOrDirectory .. => .missing
  | .alreadyExists .. => .alreadyThere
  | _ => .refused

/-- The result of an action on the disk. -/
def onDisk {α : Type} (action : IO α) : IO (Except DiskFault α) := do
  try return .ok (← action)
  catch error => return .error (diskFault error)

/-- The bytes of a file. -/
def readBytes (path : String) : IO Bytes := return (← IO.FS.readBinFile path).toList

/-- Writes a file. -/
def writeBytes (path : String) (bytes : Bytes) : IO Unit :=
  IO.FS.writeBinFile path ⟨bytes.toArray⟩

/-- Removes a file, if it is there. -/
def removeFile (path : String) : IO Unit := do
  try IO.FS.removeFile path
  catch error =>
    match diskFault error with
    | .missing => return
    | _ => throw error

/-- Makes sure that a folder is there. -/
def checkFolder (path : String) : IO Unit := do
  if !(← (← IO.FS.realPath path).isDir) then
    throw (.noFileOrDirectory path 0 "no such folder")

/-- The lines of a file; there are none if it cannot be read. -/
def readLines (path : String) : IO (List Text) := do
  match ← onDisk (IO.FS.readFile path) with
  | .error _ => return []
  | .ok lines => return Text.lines lines.toList

/-- An account of the machine. -/
structure Account where
  name : Text
  number : Text
  folder : Text

/-- The account in a line of the list of accounts, which has its name first, its number third, and its
folder sixth. -/
def Account.ofLine? (line : Text) : Option Account :=
  match line.splitAt ':' with
  | name :: _ :: number :: _ :: _ :: folder :: _ => some { name, number, folder }
  | _ => none

/-- The number of the account that runs the program. -/
def currentNumber? : IO (Option Text) := do
  return (← readLines "/proc/self/status").findSome? fun line =>
    match Text.words line with
    | field :: number :: _ => if field = "Uid:".toList then some number else none
    | _ => none

/-- The home folders that the accounts of the machine have. -/
def readHomes : IO Homes := do
  let accounts := (← readLines "/etc/passwd").filterMap Account.ofLine?
  let number ← currentNumber?
  return { own := (accounts.find? fun account => some account.number == number).map Account.folder
           accounts := accounts.map fun account => (account.name, account.folder) }

/-- The time in milliseconds: that of a file which has just been made. -/
def currentTime : IO Int := do
  let (_, file) ← IO.FS.createTempFile
  let time := (← file.metadata).modified
  IO.FS.removeFile file
  return time.sec * 1000 + time.nsec.toNat / 1000000

/-- Prints a text at once. -/
def printText (stream : IO.FS.Stream) (text : Text) : IO Unit := do
  stream.putStr (String.ofList text)
  stream.flush

/-- Prints a text, unless half of a pair stands in it by itself. -/
def printLoose (text : LooseText) : IO (Except OutputFault Unit) := do
  if text != text.shown.loose then return .error .unencodable
  try
    printText (← IO.getStdout) text.shown
    return .ok ()
  catch _ => return .error .closed

/-- Shows something that is not printed. -/
def showEvent (state : State) : Event → IO State
  | .verbose => return { state with verbose := true }
  | .slept seconds => do
    let wait := (seconds.mul 1000).toInt?.getD 0
    IO.sleep (UInt32.ofNat wait.toNat)
    return state
  | event => do
    printText (← IO.getStderr) (Event.errorOutput state.verbose [event])
    return state

/-- How a call of a service ends. -/
def noConnection : Fault :=
  .foreign { name := "APIConnectionError", text := some "Connection error." }

/-- The reply to a request, and what the machine remembers after it. -/
def reply (state : State) : (request : Request) → IO (request.Reply × State)
  | .isFile path => do
    match ← onDisk (readBytes (pathString state path)) with
    | .ok _ => return (.ok true, state)
    | .error _ => return (.ok false, state)
  | .read path => return (← onDisk (readBytes (pathString state path)), state)
  | .write path bytes => return (← onDisk (writeBytes (pathString state path) bytes), state)
  | .makeFolders path => return (← onDisk (IO.FS.createDirAll (pathString state path)), state)
  | .remove path => return (← onDisk (removeFile (pathString state path)), state)
  | .folder => return (state.folder, state)
  | .enter path => do
    match ← onDisk (checkFolder (pathString state path)) with
    | .ok () => return (.ok (), { state with folder := (path.resolved state.folder).names })
    | .error fault => return (.error fault, state)
  | .variable name => return ((← IO.getEnv (String.ofList name)).map String.toList, state)
  | .clock => return (← currentTime, state)
  | .input => return ((← (← IO.getStdin).readToEnd).toList, state)
  | .hasPackage _ => return (false, state)
  | .call _ => return (.error noConnection, state)
  | .emit (.printed text) => return (← printLoose text, state)
  | .emit event => return (.ok (), ← showEvent state event)
  | .accounts => return (← readHomes, state)
  | .serve _ => return ([], state)

/-- Performs the requests of a program. -/
def perform {α : Type} (state : State) : Program α → IO (Except Fault α × State)
  | .done value => return (.ok value, state)
  | .raise fault => return (.error fault, state)
  | .ask request next => do
    let (answer, state) ← reply state request
    perform state (next answer)

/-- Reports a fault that no command provides for. -/
def reportFault (fault : Fault) : IO UInt32 := do
  printText (← IO.getStderr) (reportWith fault.message none ++ "\n")
  return 1

/-- Performs a command, and gives its exit code. -/
def exitCode (state : State) (program : Program Nat) : IO UInt32 := do
  match (← perform state program).1 with
  | .ok code => return UInt32.ofNat code
  | .error fault => reportFault fault

/-- Performs a session line by line, as the lines are typed. -/
partial def performSession (state : State) (session : Command.Session) (angles : AngleUnit) :
    IO UInt32 := do
  let (_, state) ← perform state session.prompt
  let line ← (← IO.getStdin).getLine
  if line.isEmpty then return 0
  match ← perform state (session.step angles (.ofText line.toList)) with
  | (.ok (some angles), state) => performSession state session angles
  | (.ok none, _) => return 0
  | (.error fault, _) => reportFault fault

/-- Performs what a command line says, and gives the exit code. -/
def runWords (state : State) (words : List Text) : IO UInt32 := do
  match Command.Arguments.read words with
  | .ok (.session arguments) =>
    let state := { state with verbose := arguments.common.verbose }
    match ← perform state (Command.openSession arguments) with
    | (.ok (session, angles), state) => performSession state session angles
    | (.error (.failure failure), state) => exitCode state (Command.report "repl" false failure)
    | (.error fault, _) => reportFault fault
  | _ => exitCode state (Command.execute words)

end Reckoner.Machine

/-- The program: its words are a command with its arguments. -/
def main (words : List String) : IO UInt32 := do
  let folder := Reckoner.Path.ofText (← IO.currentDir).toString.toList
  Reckoner.Machine.runWords ⟨folder.names, false⟩ (words.map String.toList)
