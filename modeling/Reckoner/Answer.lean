import Reckoner.Failure
import Reckoner.Phrase.Numbers
import Reckoner.Text.Lines

/-! Answers of a language model.  The expression is looked for on the first line that is not blank,
within a fence if the whole answer is fenced, after a label, and between backticks. -/

namespace Reckoner

/-- The mark of a fence: three backticks. -/
def fenceMark : Text := "\x60\x60\x60"

/-- Whether `c` belongs to the language tag of a fence. -/
def isTag (c : Char) : Bool := c.isAlphanum || c == '_' || c == '-'

/-- The white space at the start of a text. -/
def leadingBlanks (s : Text) : Text := s.takeWhile isBlank

/-- The content of a fenced text.  The opening mark has a tag or none, the closing mark ends the
text, and each stands on a line of its own: the line feeds that end the opening line and the
content are two. -/
def fenced? (s : Text) : Option Text := do
  let rest ← Text.after? fenceMark s.stripped
  let body := rest.dropWhile isTag
  let inner := (← Text.after? fenceMark.reverse body.reverse).reverse
  let opening := leadingBlanks inner
  if inner.length = opening.length then
    if 1 < opening.count '\n' then return [] else none
  else if opening.elem '\n' && (leadingBlanks inner.reverse).elem '\n' then return inner
  else none

/-- The content of a fenced text, or else the text, without white space at its ends. -/
def unfenced (s : Text) : Text := Text.stripped ((fenced? s).getD s)

/-- What follows the label of an answer, if there is one. -/
def afterLabel? (s : Text) : Option Text := do
  let line := s.skipBlanks
  let rest ← (line.afterWord? "expression").orElse fun _ => line.afterWord? "answer"
  let rest ← afterSign? ':' rest.skipBlanks
  return rest.skipBlanks

/-- A line without its label and without backticks and white space at its ends. -/
def undecorated (line : Text) : Text :=
  let s : Text := Text.stripped ((afterLabel? line).getD line)
  Text.stripped (s.trimmed (· == '\x60'))

/-- The answer that has no expression. -/
def emptyAnswer : Failure := .translator "Translator returned an empty expression."

/-- The expression in an answer: what its first line that is not blank holds. -/
def answerExpression (answer : Text) : Except Failure Text :=
  match (unfenced answer).lines.find? fun line => !line.stripped.isEmpty with
  | none => .error emptyAnswer
  | some line =>
    if (undecorated line).isEmpty then .error emptyAnswer
    else .ok (expandSigns (undecorated line))

end Reckoner
