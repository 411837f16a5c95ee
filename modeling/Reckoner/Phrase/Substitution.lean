import Reckoner.Text.Basic

/-! Substitution in a text, from left to right.  At each place a reader may find something to
replace; the search goes on after it, and replacements are not read again. -/

namespace Reckoner

/-- What a reader has found: the text to put in place of the next `size` characters. -/
structure Found where
  replacement : Text
  size : Nat

/-- A reader looks at the characters from a place on; `before` is the one before it, if any. -/
abbrev Reader := (before : Option Char) → Text → Option Found

/-- The text from a place on after the substitution, where the first `skipped` characters are part
of what has been replaced. -/
def substituteFrom (read : Reader) (skipped : Nat) (before : Option Char) : Text → Text
  | [] => []
  | c :: s =>
    match skipped with
    | skipped + 1 => substituteFrom read skipped (some c) s
    | 0 =>
      match read before (c :: s) with
      | some found => found.replacement ++ substituteFrom read (found.size - 1) (some c) s
      | none => c :: substituteFrom read 0 (some c) s

/-- The text with everything replaced that the reader finds. -/
def substitute (read : Reader) (s : Text) : Text := substituteFrom read 0 none s

/-- Whether the reader finds anything from a place on. -/
def findsFrom (read : Reader) (before : Option Char) : Text → Bool
  | [] => false
  | c :: s => (read before (c :: s)).isSome || findsFrom read (some c) s

/-- Whether the reader finds anything. -/
def finds (read : Reader) (s : Text) : Bool := findsFrom read none s

/-- What was read of `s` when `rest` is left, with its replacement. -/
def Found.upTo (replacement s rest : Text) : Found := ⟨replacement, s.length - rest.length⟩

/-- A reader that leaves a text alone finds nothing there to replace. -/
theorem substituteFrom_eq_self {read : Reader} {before : Option Char} {s : Text}
    (h : findsFrom read before s = false) : substituteFrom read 0 before s = s := by
  induction s generalizing before with
  | nil => rfl
  | cons c s ih =>
    simp only [findsFrom, Bool.or_eq_false_iff, Option.isSome_eq_false_iff,
      Option.isNone_iff_eq_none] at h
    simp only [substituteFrom, h.1, ih h.2]

end Reckoner
