import Reckoner.Journal.Entry
import Reckoner.Program

/-! Journals: the latest entries, newest first, and the file in which they are kept.  An operation
that fails leaves the journal and its file as they were. -/

namespace Reckoner

/-- The first `count` items of a list; a negative count says how many are left out at the end. -/
def upTo {α : Type} (count : Int) (items : List α) : List α :=
  match count with
  | .ofNat n => items.take n
  | .negSucc n => items.take (items.length - (n + 1))

/-- A journal: its file, how many entries it may have, and the entries, newest first. -/
structure Journal where
  path : Path
  capacity : Int
  entries : List Entry
  deriving DecidableEq, Repr

namespace Journal

/-- The source of a journal's log records. -/
def logSource : Text := "rpncalc.history"

/-- What stands for the words of the system in a message. -/
def systemWords : Text := "<os error>"

/-- What stands for the words about a malformed text in a message. -/
def malformedWords : Text := "<json error>"

/-- Logs that a journal cannot be read. -/
def warnUnreadable (path : Path) : Program Unit :=
  Program.log .warning logSource ("could not read history " ++ path.text ++ ": " ++ systemWords)

/-- Logs that the file of a journal holds something else. -/
def warnMalformed (path : Path) (reason : Text) : Program Unit :=
  Program.log .warning logSource ("discarding malformed history " ++ path.text ++ ": " ++ reason)

/-- The entries in a file.  There are none in a file that is missing, and none in one that cannot be
read or that holds something else, which is logged. -/
def entriesAt (path : Path) : Program (List Entry) := do
  match ← Program.readText path with
  | .error .missing => return []
  | .error _ =>
    warnUnreadable path
    return []
  | .ok text =>
    match Entry.readAll text with
    | .ok entries => return entries
    | .error (.json .numeralTooLong) => .raise (.crash .numeralTooLong)
    | .error (.json .tooDeep) => .raise (.crash .tooDeep)
    | .error (.json .malformed) =>
      warnMalformed path malformedWords
      return []
    | .error .noArray =>
      warnMalformed path "expected a JSON array"
      return []

/-- The journal that is kept in a file. -/
def opened (path : Path) (capacity : Int) : Program Journal :=
  return ⟨path, capacity, upTo capacity (← entriesAt path)⟩

/-- The failure for a file that cannot be written. -/
def unwritable (path : Path) : Failure := .history ("Failed writing history file: " ++ path.text)

/-- The failure for a file that cannot be removed. -/
def unremovable (path : Path) : Failure := .history ("Failed removing history file: " ++ path.text)

/-- The failure for a file to which the entries cannot be copied. -/
def unexportable (path : Path) : Failure := .history ("Failed exporting history to: " ++ path.text)

/-- The text of the entries in a layout.  A time with too many digits is beyond what a program
provides for. -/
def written (layout : Json.Layout) (journal : Journal) : Program Text :=
  match Entry.writeAll? layout journal.entries with
  | some text => return text
  | none => .raise (.crash .numeralTooLong)

/-- Keeps the entries in the file, in a folder that is made if it is missing. -/
def save (journal : Journal) : Program Unit := do
  let failed := Program.fail (unwritable journal.path)
  match ← Program.makeFolders journal.path.parent with
  | .error _ => failed
  | .ok () =>
    let text ← journal.written .compact
    match ← Program.write journal.path (Utf8.encode text) with
    | .error _ => failed
    | .ok () => return

/-- The journal with one more entry. -/
def withEntry (journal : Journal) (entry : Entry) : Journal :=
  { journal with entries := upTo journal.capacity (entry :: journal.entries) }

/-- Adds an entry, at the present time unless another one is given. -/
def record (journal : Journal) (expression result : LooseText) (time : Option Int) :
    Program (Entry × Journal) := do
  let time ← match time with
    | some time => pure time
    | none => Program.clock
  let entry : Entry := ⟨expression, result, time⟩
  (journal.withEntry entry).save
  return (entry, journal.withEntry entry)

/-- Removes the file and all entries. -/
def clear (journal : Journal) : Program Journal := do
  match ← Program.remove journal.path with
  | .error _ => Program.fail (unremovable journal.path)
  | .ok () => return { journal with entries := [] }

/-- Copies the entries to another file, each item on a line of its own. -/
def copyTo (journal : Journal) (destination : Path) : Program Unit := do
  let text ← journal.written (.indented 2)
  match ← Program.write destination (Utf8.encode (text ++ "\n")) with
  | .error _ => Program.fail (unexportable destination)
  | .ok () => return

end Journal

end Reckoner
