import Reckoner.Phrase.Substitution
import Reckoner.Text.Blank
import Reckoner.Text.Caseless
import Reckoner.Text.Word

/-! Spoken phrases: words in any case with white space between them, neither preceded nor followed
by a word character. -/

namespace Reckoner

/-- A part of a phrase. -/
inductive Piece
  | word (letters : Text)
  /-- White space. -/
  | gap
  /-- White space or nothing. -/
  | looseGap
  deriving DecidableEq, Repr

/-- A phrase: its parts in order.  A word follows each gap. -/
abbrev Phrase := List Piece

namespace Phrase

/-- The phrase whose words stand in `s`, with a gap between neighbours. -/
def ofWords (s : Text) : Phrase := (s.words.map Piece.word).intersperse .gap

/-- What follows the phrase, if the text starts with it. -/
def after? : Phrase → Text → Option Text
  | [], s => some s
  | .word letters :: phrase, s =>
    match s.afterWord? letters with
    | some rest => after? phrase rest
    | none => none
  | .gap :: phrase, s =>
    match s with
    | [] => none
    | c :: rest => if isBlank c then after? phrase (Text.skipBlanks rest) else none
  | .looseGap :: phrase, s => after? phrase s.skipBlanks

/-- What follows the phrase, if the text starts with it and it ends with the end of a word. -/
def whole? (phrase : Phrase) (s : Text) : Option Text :=
  (phrase.after? s).filter endsWord

/-- The reader that puts `replacement` in place of the first of these phrases that is there. -/
def reader (phrases : List Phrase) (replacement : Text) : Reader := fun before s =>
  if startsWord before then (phrases.findSome? (·.whole? s)).map (Found.upTo replacement s)
  else none

end Phrase

end Reckoner
