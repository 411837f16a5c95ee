import Reckoner.Toml.Draft
import Reckoner.Toml.Numbers
import Reckoner.Toml.Strings

/-! Reading TOML documents. -/

namespace Reckoner.Toml

/-- A draft, or the fault where there is none. -/
def required : Option Draft → Except ReadFault Draft
  | some draft => .ok draft
  | none => .error .malformed

/-- The value that a text starts with, if it is no array and no table. -/
def scalar (s : Text) : Reading Value :=
  match Text.after? "true" s, Text.after? "false" s with
  | some rest, _ => .ok (.boolean true, rest)
  | _, some rest => .ok (.boolean false, rest)
  | none, none =>
    if s.head? = some '"' || s.head? = some singleQuote then
      (string s).map fun (text, rest) => (.text text, rest)
    else (moment? s).getD (number s)

/-- What follows the sign between a key and its value, with the key. -/
def assignment (s : Text) : Reading Key :=
  (key s).bind fun (key, s) =>
    match s with
    | '=' :: s => .ok (key, skipSpaces s)
    | _ => .error .malformed

/-- How deep values may be nested, where an array counts for two levels and a table for three. -/
def maxDepth : Nat := 985

mutual

/-- The value that a text starts with.  The fuel bounds how often the readers call each other, and
the value may be nested `depth` deep. -/
def valueFrom : (fuel depth : Nat) → Text → Reading Value
  | 0, _, _ => .error .malformed
  | fuel + 1, depth, s =>
    match depth, s with
    | depth + 2, '[' :: s =>
      (itemsFrom fuel depth s).map fun (items, rest) => (.array items, rest)
    | depth + 3, '{' :: s =>
      match skipSpaces s with
      | '}' :: rest => .ok (.table [], rest)
      | s => (membersFrom fuel depth {} s).map fun (members, rest) => (.table members, rest)
    | _, '[' :: _ | _, '{' :: _ => .error .tooDeep
    | _, s => scalar s

/-- The items of an array up to the closing bracket; there may be a comma after the last one. -/
def itemsFrom : (fuel depth : Nat) → Text → Reading (List Value)
  | 0, _, _ => .error .malformed
  | fuel + 1, depth, s =>
    (skipGaps (s.length + 1) s).bind fun s =>
      match s with
      | ']' :: rest => .ok ([], rest)
      | s =>
        (valueFrom fuel depth s).bind fun (item, s) =>
          (skipGaps (s.length + 1) s).bind fun s =>
            match s with
            | ']' :: rest => .ok ([item], rest)
            | ',' :: s => (itemsFrom fuel depth s).map fun (items, rest) => (item :: items, rest)
            | _ => .error .malformed

/-- The members of a table that is written as a value, from the first one of those that are left to
the closing brace. -/
def membersFrom : (fuel depth : Nat) → Draft → Text → Reading Members
  | 0, _, _, _ => .error .malformed
  | fuel + 1, depth, draft, s =>
    (assignment s).bind fun (key, s) =>
      (valueFrom fuel depth s).bind fun (value, s) =>
        (required (draft.addInline? key value)).bind fun draft =>
          match skipSpaces s with
          | '}' :: rest => .ok (draft.members, rest)
          | ',' :: s => membersFrom fuel depth draft (skipSpaces s)
          | _ => .error .malformed

end

/-- The value that a text starts with. -/
def value (s : Text) : Reading Value := valueFrom (s.length + 1) maxDepth s

/-- The draft after the header that a text starts with, after its first bracket. -/
def afterHeader (draft : Draft) (s : Text) : Reading Draft :=
  let draft := draft.atHeader
  match s with
  | '[' :: s =>
    (key (skipSpaces s)).bind fun (key, s) =>
      (required (draft.openItem? key)).bind fun draft =>
        match s with
        | ']' :: ']' :: rest => .ok (draft, rest)
        | _ => .error .malformed
  | s =>
    (key (skipSpaces s)).bind fun (key, s) =>
      (required (draft.openTable? key)).bind fun draft =>
        match s with
        | ']' :: rest => .ok (draft, rest)
        | _ => .error .malformed

/-- The draft after the member that a text starts with. -/
def afterMember (draft : Draft) (s : Text) : Reading Draft :=
  (assignment s).bind fun (key, s) =>
    (value s).bind fun (value, rest) =>
      (required (draft.add? key value)).map fun draft => (draft, rest)

/-- The draft after the statement that a line starts with, if it has one. -/
def afterStatement (draft : Draft) : Text → Reading Draft
  | [] => .ok (draft, [])
  | c :: s =>
    if c = '[' then afterHeader draft s
    else if startsName c then afterMember draft (c :: s)
    else .ok (draft, c :: s)

/-- The draft after all lines of a text. -/
def afterLines : (fuel : Nat) → Draft → Text → Except ReadFault Draft
  | 0, _, _ => .error .malformed
  | fuel + 1, draft, s =>
    (afterStatement draft (skipSpaces s)).bind fun (draft, s) =>
      (skipComment (skipSpaces s)).bind fun s =>
        match s with
        | [] => .ok draft
        | '\n' :: s => afterLines fuel draft s
        | _ => .error .malformed

/-- The text with a line feed for each carriage return that has one after it, and the line feed. -/
def unifyLineEnds : Text → Text
  | [] => []
  | '\r' :: '\n' :: s => '\n' :: unifyLineEnds s
  | c :: s => c :: unifyLineEnds s

/-- The members of the document that a text is. -/
def read (s : Text) : Except ReadFault Members :=
  (afterLines (s.length + 1) {} (unifyLineEnds s)).map (·.members)

end Reckoner.Toml
