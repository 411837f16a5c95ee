import Reckoner.Number.Double
import Reckoner.Text.Basic

/-! TOML values.  A date or a time is kept as it was written. -/

namespace Reckoner.Toml

/-- A TOML value. -/
inductive Value
  | text (value : Text)
  | integer (value : Int)
  | real (value : Double)
  | boolean (value : Bool)
  | moment (written : Text)
  | array (items : List Value)
  | table (members : List (Text × Value))

/-- The members of a table, in the order in which they were made. -/
abbrev Members := List (Text × Value)

/-- The names on the way to a value. -/
abbrev Key := List Text

namespace Members

/-- The value of a name. -/
def member? (members : Members) (name : Text) : Option Value := members.lookup name

/-- The members with another value for a name that is among them. -/
def replace (name : Text) (value : Value) (members : Members) : Members :=
  members.map fun member => if member.1 = name then (name, value) else member

/-- The members with a new value at their end, unless the name is taken. -/
def add? (name : Text) (value : Value) (members : Members) : Option Members :=
  if (members.member? name).isSome then none else some (members ++ [(name, value)])

/-- The members with one more table in the array of this name, which is made if it is missing. -/
def addTable? (name : Text) (members : Members) : Option Members :=
  match members.member? name with
  | none => some (members ++ [(name, .array [.table []])])
  | some (.array items) => some (replace name (.array (items ++ [.table []])) members)
  | some _ => none

/-- The members with a change in the table at a key.  Tables on the way are made if they are
missing, and where `intoArrays` is set, an array on the way stands for its last item. -/
def changeAt? (intoArrays : Bool) (change : Members → Option Members) :
    Key → Members → Option Members
  | [], members => change members
  | name :: key, members =>
    match members.member? name with
    | none =>
      (changeAt? intoArrays change key []).map fun inner => members ++ [(name, .table inner)]
    | some (.table inner) =>
      (changeAt? intoArrays change key inner).map fun inner => replace name (.table inner) members
    | some (.array items) =>
      match intoArrays, items.getLast? with
      | true, some (.table inner) =>
        (changeAt? intoArrays change key inner).map fun inner =>
          replace name (.array (items.dropLast ++ [.table inner])) members
      | _, _ => none
    | some _ => none

end Members

end Reckoner.Toml
