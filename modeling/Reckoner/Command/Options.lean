import Reckoner.Text.Digit
import Reckoner.Text.Quoted

/-! The words of a command line.  A word that starts with a hyphen is an option, unless it is a
negative number, has a space, or stands after the word `--`.  The name of an option may be cut short
as long as it is the only one that starts so, and a value may be attached to it with an equals sign;
options that are single letters may be put together.  Words that are no options are operands, which
stand in one row. -/

namespace Reckoner.Command

/-- The word after which all words are operands. -/
def endMark : Text := "--"

/-- Why the reading of a command line stops before its end. -/
inductive Stop
  | help
  | version
  /-- The words make no sense. -/
  | misuse (reason : Text)
  deriving DecidableEq, Repr

/-- What an option does to the arguments that have been read so far. -/
abbrev Setter (σ : Type) := σ → Except Stop σ

/-- An option: a flag, which may have a letter beside its name, or one with a value.  An option whose
attached value is the end mark has none. -/
inductive OptionForm (σ : Type)
  | flag (letter : Option Char) (name : Text) (set : Setter σ)
  | value (name : Text) (set : Option Text → Setter σ)

/-- What operands are: there are none, or one at least, or the first one is the name of a command,
to which all words after it belong. -/
inductive Operands (σ : Type)
  | absent
  | words (set : List Text → σ → σ)
  | command (run : Text → List Text → Setter σ)

/-- The options and the operands of a command. -/
structure Grammar (σ : Type) where
  options : List (OptionForm σ)
  operands : Operands σ

/-- A word before the end mark. -/
inductive Word (σ : Type)
  | operand
  /-- An option that does not exist. -/
  | stray
  /-- Options without a value, or with one attached. -/
  | options (run : Setter σ)
  /-- An option whose value is the next word. -/
  | value (set : Option Text → Setter σ)

variable {σ : Type}

/-- The name of an option. -/
def OptionForm.name : OptionForm σ → Text
  | flag _ name _ => name
  | value name _ => name

/-- Whether a word is a negative number: a hyphen and digits, with a point that has digits after it
or without one. -/
def isNegativeNumber : Text → Bool
  | '-' :: s =>
    let s := if s.getLast? = some '\n' then s.dropLast else s
    let fraction := s.dropWhile isDecimalDigit
    match fraction with
    | [] => !s.isEmpty
    | '.' :: digits => !digits.isEmpty && digits.all isDecimalDigit
    | _ => false
  | _ => false

/-- The fault of an option that has a value and may not. -/
def ignoredValue (value : Text) : Stop :=
  .misuse ("ignored explicit argument " ++ Text.quoted value)

namespace Grammar

/-- The flag of a letter. -/
def letterSetter? (grammar : Grammar σ) (c : Char) : Option (Setter σ) :=
  grammar.options.findSome? fun
    | .flag (some letter) _ set => if letter = c then some set else none
    | _ => none

/-- The flags of all letters of a word, unless one of them is no flag. -/
def letterSetters (grammar : Grammar σ) (letters : Text) : Except Stop (List (Setter σ)) :=
  letters.mapM fun c =>
    match grammar.letterSetter? c with
    | some set => .ok set
    | none => .error (ignoredValue letters)

/-- The value that is attached to an option, unless it is the end mark. -/
def attachedValue (value : Text) : Option Text := if value = endMark then none else some value

/-- The word of an option with a value attached or without one. -/
def attached (form : OptionForm σ) (value : Option Text) : Word σ :=
  match form, value with
  | .flag _ _ set, none => .options set
  | .flag _ _ _, some value => .options fun _ => .error (ignoredValue value)
  | .value _ set, none => .value set
  | .value _ set, some value => .options (set (attachedValue value))

/-- The word that starts with the letter of a flag.  An equals sign may stand before the letters
after it. -/
def lettered (grammar : Grammar σ) (set : Setter σ) (more : Text) : Word σ :=
  .options fun s => do
    let sets ←
      match more with
      | ['='] => .error (ignoredValue [])
      | '=' :: letters | letters => grammar.letterSetters letters
    (set :: sets).foldlM (fun s set => set s) s

/-- The options whose names start with `start`. -/
def named (grammar : Grammar σ) (start : Text) : List (OptionForm σ) :=
  grammar.options.filter fun form => Text.startsWith start form.name

/-- The fault of a name that may be that of several options. -/
def ambiguous (word : Text) (forms : List (OptionForm σ)) : Stop :=
  .misuse ("ambiguous option: " ++ word ++ " could match " ++
    Text.joined ", " (forms.map OptionForm.name))

/-- What a word is that names no option. -/
def unnamed (word : Text) : Word σ :=
  if isNegativeNumber word || word.elem ' ' then .operand else .stray

/-- What a word that starts with two hyphens is. -/
def longWord (grammar : Grammar σ) (word : Text) : Except Stop (Word σ) :=
  let name := word.takeWhile (· != '=')
  let value :=
    match word.dropWhile (· != '=') with
    | [] => none
    | _ :: value => some value
  let exactly := grammar.options.find? fun form => form.name == name
  match exactly, grammar.named name with
  | some form, _ | none, [form] => .ok (attached form value)
  | none, [] => .ok (unnamed word)
  | none, forms => .error (ambiguous word forms)

/-- What a word before the end mark is. -/
def classify (grammar : Grammar σ) (word : Text) : Except Stop (Word σ) :=
  match word with
  | '-' :: '-' :: _ => grammar.longWord word
  | '-' :: c :: more =>
    match grammar.letterSetter? c with
    | some set => .ok (grammar.lettered set more)
    | none => .ok (unnamed word)
  | _ => .ok .operand

end Grammar

/-- The operands that have been read: none yet, those of a row that may go on, or all. -/
inductive Row
  | waiting
  | within (words : List Text)
  | closed
  deriving DecidableEq, Repr

/-- How far a command line has been read: the arguments, the row of operands, and whether words have
been met that belong nowhere. -/
structure Progress (σ : Type) where
  arguments : σ
  row : Row
  strays : Bool

namespace Progress

/-- No operand that comes now belongs to the row. -/
def closeRow (grammar : Grammar σ) (progress : Progress σ) : Progress σ :=
  match progress.row, grammar.operands with
  | .within words, .words set =>
    { progress with arguments := set words progress.arguments, row := .closed }
  | _, _ => progress

/-- An operand of a command that takes operands or none. -/
def addWord (grammar : Grammar σ) (word : Text) (progress : Progress σ) : Progress σ :=
  match progress.row, grammar.operands with
  | .waiting, .words _ => { progress with row := .within [word] }
  | .within words, _ => { progress with row := .within (words ++ [word]) }
  | _, _ => { progress with strays := true }

/-- The words after the end mark, which are operands. -/
def addRest (grammar : Grammar σ) (rest : Option (List Text)) (progress : Progress σ) :
    Progress σ :=
  match rest, progress.row, grammar.operands with
  | none, _, _ => progress
  | some (word :: words), .waiting, .words _ =>
    { progress with row := .within (word :: words) }
  | some words, .within before, _ => { progress with row := .within (before ++ words) }
  | some _, _, _ => { progress with strays := true }

/-- The arguments at the end of a command line. -/
def finish (grammar : Grammar σ) (progress : Progress σ) : Except Stop σ :=
  let progress := progress.closeRow grammar
  match grammar.operands, progress.row, progress.strays with
  | .words _, .waiting, _ | .command _, .waiting, _ =>
    .error (.misuse "required arguments are missing")
  | _, _, true => .error (.misuse "unrecognized arguments")
  | _, _, false => .ok progress.arguments

end Progress

namespace Grammar

/-- The words after the end mark, with it. -/
def withMark : Option (List Text) → List Text
  | none => []
  | some words => endMark :: words

/-- The arguments from the words that are left before the end mark and those after it. -/
def readFrom (grammar : Grammar σ) (rest : Option (List Text)) (progress : Progress σ) :
    List (Text × Word σ) → Except Stop σ
  | [] => (progress.addRest grammar rest).finish grammar
  | (word, .operand) :: words =>
    match grammar.operands, progress.row with
    | .command run, .waiting =>
      (run word (words.map (·.1) ++ withMark rest) progress.arguments).bind fun arguments =>
        Progress.finish grammar { progress with arguments, row := .closed }
    | _, _ => grammar.readFrom rest (progress.addWord grammar word) words
  | (_, .stray) :: words =>
    grammar.readFrom rest { progress.closeRow grammar with strays := true } words
  | (_, .options run) :: words =>
    let progress := progress.closeRow grammar
    (run progress.arguments).bind fun arguments =>
      grammar.readFrom rest { progress with arguments } words
  | (_, .value set) :: (value, .operand) :: words =>
    let progress := progress.closeRow grammar
    (set (some value) progress.arguments).bind fun arguments =>
      grammar.readFrom rest { progress with arguments } words
  | (_, .value _) :: _ => .error (.misuse "expected one argument")

/-- The words before the end mark, and those after it if there is one. -/
def splitAtMark : List Text → List Text × Option (List Text)
  | [] => ([], none)
  | word :: words =>
    if word = endMark then ([], some words)
    else
      let (before, rest) := splitAtMark words
      (word :: before, rest)

/-- The arguments that the words of a command line set. -/
def read (grammar : Grammar σ) (arguments : σ) (words : List Text) : Except Stop σ := do
  let (before, rest) := splitAtMark words
  let before ← before.mapM fun word => (grammar.classify word).map (word, ·)
  grammar.readFrom rest ⟨arguments, .waiting, false⟩ before

end Grammar

end Reckoner.Command
