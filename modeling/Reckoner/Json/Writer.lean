import Reckoner.Json.Value
import Reckoner.Number.Layout
import Reckoner.Text.Quoted

/-! Writing JSON.  Strings have printable ASCII characters only; all other symbols are escaped, those
above `U+FFFF` as two surrogates.  A layout puts everything on one line or each item on a line of its
own. -/

namespace Reckoner.Json

/-- The escape of a code unit. -/
def unitEscape (n : Nat) : Text := "\\u" ++ Text.hexadecimal 4 n

/-- How a character is written between the quotes of a string. -/
def escaped (c : Char) : Text :=
  if c = '"' then "\\\""
  else if c = '\\' then "\\\\"
  else if c = '\n' then "\\n"
  else if c = '\r' then "\\r"
  else if c = '\t' then "\\t"
  else if c = Char.ofNat 8 then "\\b"
  else if c = Char.ofNat 12 then "\\f"
  else if 0x20 ≤ c.toNat && c.toNat < 0x7f then [c]
  else if c.toNat < 0x10000 then unitEscape c.toNat
  else
    unitEscape (0xd800 + (c.toNat - 0x10000) / 0x400) ++
      unitEscape (0xdc00 + (c.toNat - 0x10000) % 0x400)

/-- How a symbol is written between the quotes of a string. -/
def symbolText : Symbol → Text
  | .char c => escaped c
  | .half s => unitEscape s.unit

/-- A text as a string. -/
def stringText (s : LooseText) : Text := '"' :: (s.flatMap symbolText ++ ['"'])

/-- A double; the three that are no decimals have names. -/
def realText : Double → Text
  | .nan => "NaN"
  | .infinite negative => if negative then "-Infinity" else "Infinity"
  | value => value.text

/-- How items are laid out: on one line with a blank after each comma, or each on a line of its own
that starts with `width` blanks more than the lines around. -/
inductive Layout
  | compact
  | indented (width : Nat)
  deriving DecidableEq, Repr

namespace Layout

/-- What stands before the items at this depth. -/
def before (layout : Layout) (depth : Nat) : Text :=
  match layout with
  | compact => []
  | indented width => '\n' :: List.replicate (width * (depth + 1)) ' '

/-- What stands between two items at this depth. -/
def between (layout : Layout) (depth : Nat) : Text :=
  match layout with
  | compact => ", "
  | indented _ => ',' :: layout.before depth

/-- What stands after the items at this depth. -/
def after (layout : Layout) (depth : Nat) : Text :=
  match layout with
  | compact => []
  | indented width => '\n' :: List.replicate (width * depth) ' '

/-- The texts of items at this depth between two brackets.  Without items, the brackets stand side
by side. -/
def enclose (layout : Layout) (depth : Nat) (opening closing : Char) (items : List Text) : Text :=
  if items.isEmpty then [opening, closing]
  else
    opening :: (layout.before depth ++ Text.joined (layout.between depth) items ++
      layout.after depth ++ [closing])

end Layout

mutual

/-- A value at this depth. -/
def Value.writeAt (layout : Layout) (depth : Nat) : Value → Text
  | .null => "null"
  | .boolean value => if value then "true" else "false"
  | .integer value => Text.ofInt value
  | .real value => realText value
  | .text value => stringText value
  | .array items => layout.enclose depth '[' ']' (itemTexts layout (depth + 1) items)
  | .object members => layout.enclose depth '{' '}' (memberTexts layout (depth + 1) members)

/-- The items of an array at this depth. -/
def itemTexts (layout : Layout) (depth : Nat) : List Value → List Text
  | [] => []
  | item :: items => item.writeAt layout depth :: itemTexts layout depth items

/-- The members of an object at this depth. -/
def memberTexts (layout : Layout) (depth : Nat) : List (LooseText × Value) → List Text
  | [] => []
  | (key, value) :: members =>
    (stringText key ++ ": " ++ value.writeAt layout depth) :: memberTexts layout depth members

end

/-- A value as JSON text. -/
def Value.write (layout : Layout) (value : Value) : Text := value.writeAt layout 0

end Reckoner.Json
