import Reckoner.Text.Blank

/-! Loose texts: texts in which a surrogate may stand by itself.  UTF-16 writes a character above
`U+FFFF` as a pair of surrogates, and a format that escapes code units can name half of a pair,
which is no character.  The halves of a pair are joined where a text is made from code points, and a
text without halves is left as it is. -/

namespace Reckoner

/-- A surrogate: half of the pair of code units that stands for a character. -/
structure Surrogate where
  unit : Nat
  bounds : 0xd800 ≤ unit ∧ unit < 0xe000
  deriving DecidableEq, Repr

/-- A symbol of a loose text: a character, or a surrogate by itself. -/
inductive Symbol
  | char (c : Char)
  | half (s : Surrogate)
  deriving DecidableEq, Repr

namespace Symbol

/-- The symbol of a code point. -/
def ofCodePoint (n : Nat) : Symbol :=
  if h : 0xd800 ≤ n ∧ n < 0xe000 then half ⟨n, h⟩ else char (Char.ofNat n)

/-- The character that is shown for a symbol: a surrogate has a replacement. -/
def shown : Symbol → Char
  | char c => c
  | half _ => Char.ofNat 0xfffd

/-- Whether a symbol is white space. -/
def isBlank : Symbol → Bool
  | char c => Reckoner.isBlank c
  | half _ => false

theorem ofCodePoint_toNat (c : Char) : ofCodePoint c.toNat = char c := by
  have h : ¬(0xd800 ≤ c.toNat ∧ c.toNat < 0xe000) := by
    have := c.valid
    simp only [UInt32.isValidChar, Nat.isValidChar] at this
    simp only [Char.toNat]
    omega
  rw [ofCodePoint, dif_neg h, Char.ofNat_toNat]

end Symbol

/-- A loose text: the list of its symbols. -/
abbrev LooseText := List Symbol

/-- A text as a loose one. -/
def Text.loose (s : Text) : LooseText := s.map Symbol.char

instance : Coe Text LooseText := ⟨Text.loose⟩

instance : Coe String LooseText := ⟨fun s => Text.loose s.toList⟩

/-- Whether `n` is the first of a pair of surrogates. -/
def isHighSurrogate (n : Nat) : Bool := 0xd800 ≤ n && n < 0xdc00

/-- Whether `n` is the second of a pair of surrogates. -/
def isLowSurrogate (n : Nat) : Bool := 0xdc00 ≤ n && n < 0xe000

namespace LooseText

/-- The text of code points; two surrogates that make a pair are one character. -/
def ofCodePoints : List Nat → LooseText
  | [] => []
  | [n] => [.ofCodePoint n]
  | high :: low :: more =>
    if isHighSurrogate high && isLowSurrogate low then
      .ofCodePoint (0x10000 + (high - 0xd800) * 0x400 + (low - 0xdc00)) :: ofCodePoints more
    else .ofCodePoint high :: ofCodePoints (low :: more)

/-- The text that is shown. -/
def shown (s : LooseText) : Text := s.map Symbol.shown

/-- `s` without the white space at its two ends. -/
def stripped (s : LooseText) : LooseText :=
  ((s.dropWhile Symbol.isBlank).reverse.dropWhile Symbol.isBlank).reverse

/-- A text without surrogates is shown as it is. -/
@[simp] theorem shown_loose (s : Text) : shown s.loose = s := by
  simp [shown, Text.loose, Function.comp_def, Symbol.shown]

/-- The code points of a text make it again. -/
theorem ofCodePoints_toNat (s : Text) : ofCodePoints (s.map Char.toNat) = s.loose := by
  induction s with
  | nil => rfl
  | cons c s ih =>
    have hc : isHighSurrogate c.toNat = false := by
      have := c.valid
      simp only [UInt32.isValidChar, Nat.isValidChar] at this
      simp only [isHighSurrogate, Char.toNat, Bool.and_eq_false_iff, decide_eq_false_iff_not]
      omega
    cases s with
    | nil => simp [ofCodePoints, Symbol.ofCodePoint_toNat, Text.loose]
    | cons d s =>
      simp only [List.map_cons, ofCodePoints, hc, Bool.false_and] at ih ⊢
      simpa [Symbol.ofCodePoint_toNat, Text.loose] using ih

end LooseText

end Reckoner
