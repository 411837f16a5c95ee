import Reckoner.Phrase.Wording

/-! The words of spoken arithmetic and the signs that they stand for, in the order in which they are
replaced: a longer phrase comes before a shorter one that it starts or ends with. -/

namespace Reckoner

/-- Phrases and the sign that stands for each of them. -/
structure Rule where
  phrases : List Phrase
  sign : Text

namespace Rule

/-- The rule for phrases of words. -/
def spoken (phrases : List String) (sign : String) : Rule :=
  ⟨phrases.map fun words => Phrase.ofWords words.toList, sign⟩

/-- All rules. -/
def all : List Rule :=
  [spoken ["plus"] "+",
    spoken ["add"] "+",
    spoken ["minus"] "-",
    spoken ["subtract"] "-",
    spoken ["multiply by", "multiply", "multiplied by", "multiplied"] "*",
    spoken ["times"] "*",
    spoken ["into"] "*",
    spoken ["divided by"] "/",
    spoken ["divide"] "/",
    spoken ["over"] "/",
    spoken ["percent of"] "% of",
    ⟨[[.word "per", .looseGap, .word "cent"]], "%"⟩,
    spoken ["to the power of", "power of"] "^",
    spoken ["squared"] "^2",
    spoken ["cubed"] "^3",
    spoken ["square root of", "square root"] "sqrt(",
    spoken ["root of"] "sqrt(",
    spoken ["equals"] "="]

/-- The text with every phrase of the rule replaced by its sign. -/
def apply (rule : Rule) (s : Text) : Text := substitute (Phrase.reader rule.phrases rule.sign) s

end Rule

/-- The text with the rules applied, one after the other. -/
def applyRules (rules : List Rule) (s : Text) : Text := rules.foldl (fun s rule => rule.apply s) s

/-- Words that ask for a result and say nothing about it. -/
def fillers : Rule := .spoken ["what is", "what's", "calculate", "compute", "then"] ""

/-- Whether a request is about an equation: it has an equals sign or asks to solve. -/
def asksEquation (s : Text) : Bool :=
  finds (Phrase.reader [.ofWords "solve"] []) s || s.elem '='

end Reckoner
