import Reckoner.Journal.Basic

/-! Journals in use: a journal that is at hand is changed in place, so it matters what an operation
leaves of it also where the operation ends with a fault. -/

namespace Reckoner

/-- Whether a fault says that a journal cannot be kept. -/
def Fault.isUnkept : Fault → Bool
  | .failure reason => reason.stage == .history
  | _ => false

namespace Journal

/-- An operation on a journal in use. -/
inductive Operation
  | record (expression result : LooseText) (time : Option Int)
  | clear
  | copyTo (destination : Path)
  deriving DecidableEq, Repr

/-- Puts an entry in its place and saves the journal.  The entry is taken back where the journal
cannot be kept, and at no other fault. -/
def add (journal : Journal) (entry : Entry) : Program (Except Fault (Option Entry) × Journal) := do
  match ← (journal.withEntry entry).save.attempt with
  | .ok () => return (.ok (some entry), journal.withEntry entry)
  | .error fault => return (.error fault, if fault.isUnkept then journal else journal.withEntry entry)

/-- Performs an operation, and gives what it ends with, the entry that was added if one was, and the
journal that is left. -/
def perform (journal : Journal) : Operation → Program (Except Fault (Option Entry) × Journal)
  | .record expression result time => do
    let time ← match time with
      | some time => pure time
      | none => Program.clock
    journal.add ⟨expression, result, time⟩
  | .clear => do
    match ← journal.clear.attempt with
    | .ok cleared => return (.ok none, cleared)
    | .error fault => return (.error fault, journal)
  | .copyTo destination => do
    match ← (journal.copyTo destination).attempt with
    | .ok () => return (.ok none, journal)
    | .error fault => return (.error fault, journal)

/-- Performs operations one after the other. -/
def performAll (journal : Journal) :
    List Operation → Program (List (Except Fault (Option Entry)) × Journal)
  | [] => return ([], journal)
  | operation :: operations => do
    let (ended, journal) ← journal.perform operation
    let (more, journal) ← journal.performAll operations
    return (ended :: more, journal)

end Journal

end Reckoner
