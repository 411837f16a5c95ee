import Reckoner.Json.Reader
import Reckoner.Json.Writer
import Reckoner.Text.Integer

/-! Entries of a journal: an expression, its shown result, and when it was evaluated.  A journal is
kept as a JSON array of them, newest first. -/

namespace Reckoner

/-- An entry of a journal; the time is in milliseconds. -/
structure Entry where
  expression : LooseText
  result : LooseText
  time : Int
  deriving DecidableEq, Repr

namespace Entry

/-- The object that stands for an entry. -/
def json (entry : Entry) : Json.Value :=
  .object [("expr", .text entry.expression), ("result", .text entry.result),
    ("ts", .integer entry.time)]

/-- The entry that a value stands for, if it is an object with both texts.  Where the time is no
integer it is zero. -/
def ofJson? : Json.Value → Option Entry
  | .object members =>
    match Json.Value.member? "expr" members, Json.Value.member? "result" members with
    | some (.text expression), some (.text result) =>
      match Json.Value.member? "ts" members with
      | some (.integer time) => some ⟨expression, result, time⟩
      | _ => some ⟨expression, result, 0⟩
    | _, _ => none
  | _ => none

/-- The array of entries in a layout. -/
def writeAll (layout : Json.Layout) (entries : List Entry) : Text :=
  (Json.Value.array (entries.map json)).write layout

/-- The array of entries in a layout, unless a time has too many digits. -/
def writeAll? (layout : Json.Layout) (entries : List Entry) : Option Text :=
  if entries.all fun entry => (Text.ofInt? entry.time).isSome then some (writeAll layout entries)
  else none

/-- Why a text is no array of entries. -/
inductive Fault
  | json (fault : ReadFault)
  | noArray
  deriving DecidableEq, Repr

/-- The entries in a text; values that are none are passed over.  The empty text has none. -/
def readAll (s : Text) : Except Fault (List Entry) :=
  if s.isEmpty then .ok []
  else
    match Json.Value.read s with
    | .ok (.array items) => .ok (items.filterMap ofJson?)
    | .ok _ => .error .noArray
    | .error fault => .error (.json fault)

end Entry

end Reckoner
