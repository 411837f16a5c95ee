import Reckoner.Toml.Value

/-! Documents that are being read.  A table may be defined once, by its own header; a table that a
key with points has made may not be opened by a header later; and nothing is added to an array or to
a table that was written as a value. -/

namespace Reckoner.Toml

/-- A document that is being read: its members so far, the table that the last header has opened,
the tables that no header may define, those that will be such from the next header on, and the
values that are complete. -/
structure Draft where
  members : Members := []
  header : Key := []
  defined : List Key := []
  dotted : List Key := []
  complete : List Key := []

namespace Draft

/-- Whether a key is that of a complete value or of something in it. -/
def isComplete (draft : Draft) (key : Key) : Bool := draft.complete.any (·.isPrefixOf key)

/-- The draft at the start of a header. -/
def atHeader (draft : Draft) : Draft :=
  { draft with defined := draft.dotted ++ draft.defined, dotted := [] }

/-- The draft after the header of a table. -/
def openTable? (draft : Draft) (key : Key) : Option Draft :=
  if draft.defined.elem key || draft.isComplete key then none
  else
    (draft.members.changeAt? true some key).map fun members =>
      { draft with members, header := key, defined := key :: draft.defined }

/-- The draft after the header of one more table of an array.  Its members may have the names that
those of the table before had. -/
def openItem? (draft : Draft) (key : Key) : Option Draft :=
  if draft.isComplete key then none
  else
    let change := Members.addTable? (key.getLast?.getD [])
    (draft.members.changeAt? true change key.dropLast).map fun members =>
      { draft with
        members
        header := key
        defined := key :: draft.defined.filter fun other => !key.isPrefixOf other
        complete := draft.complete.filter fun other => !key.isPrefixOf other }

/-- The keys of the tables on the way to a key below a header. -/
def onTheWay (header key : Key) : List Key :=
  (List.range key.length).tail.map fun depth => header ++ key.take depth

/-- Whether a value is complete as it is written. -/
def isWhole : Value → Bool
  | .array _ | .table _ => true
  | _ => false

/-- The draft with a value for a key below the header. -/
def add? (draft : Draft) (key : Key) (value : Value) : Option Draft :=
  let onTheWay := onTheWay draft.header key
  let parent := draft.header ++ key.dropLast
  if onTheWay.any draft.defined.elem || draft.isComplete parent then none
  else
    let change := Members.add? (key.getLast?.getD []) value
    (draft.members.changeAt? true change parent).map fun members =>
      { draft with
        members
        dotted := onTheWay ++ draft.dotted
        complete :=
          if isWhole value then (draft.header ++ key) :: draft.complete else draft.complete }

/-- The draft of a table that is written as a value, with one more member. -/
def addInline? (draft : Draft) (key : Key) (value : Value) : Option Draft :=
  if draft.isComplete key then none
  else
    let change := Members.add? (key.getLast?.getD []) value
    (draft.members.changeAt? false change key.dropLast).map fun members =>
      { draft with
        members
        complete := if isWhole value then key :: draft.complete else draft.complete }

end Draft

end Reckoner.Toml
