/-! Texts as lists of characters.  Every reader and writer of this library works on a text one
character at a time, so a text is the list of its characters, and a string literal stands for the
list of its own. -/

namespace Reckoner

/-- A text: the list of its characters, which are Unicode scalar values. -/
abbrev Text := List Char

instance : Coe String Text := ⟨String.toList⟩

namespace Text

/-- What follows `lead` in `s`, if `s` starts with it. -/
def after? : (lead s : Text) → Option Text
  | [], s => some s
  | _ :: _, [] => none
  | a :: lead, b :: s => if a = b then after? lead s else none

/-- Whether `s` starts with `lead`. -/
def startsWith (lead s : Text) : Bool := (after? lead s).isSome

/-- Whether `part` occurs in `s`. -/
def contains (part : Text) : (s : Text) → Bool
  | [] => part.isEmpty
  | c :: s => startsWith part (c :: s) || contains part s

/-- The texts one after the other with `separator` between neighbours. -/
def joined (separator : Text) (texts : List Text) : Text := List.intercalate separator texts

/-- The parts of `s` between the occurrences of `separator`: one more than there are of them. -/
def splitAt (separator : Char) : Text → List Text
  | [] => [[]]
  | c :: s =>
    if c = separator then [] :: splitAt separator s
    else
      match splitAt separator s with
      | [] => [[c]]
      | part :: parts => (c :: part) :: parts

/-- `s` without the characters at its two ends that satisfy `p`. -/
def trimmed (p : Char → Bool) (s : Text) : Text :=
  ((s.dropWhile p).reverse.dropWhile p).reverse

/-- A natural number in decimal digits. -/
def ofNat (n : Nat) : Text := Nat.toDigits 10 n

/-- An integer in decimal digits, with a minus sign when it is negative. -/
def ofInt : Int → Text
  | .ofNat n => ofNat n
  | .negSucc n => '-' :: ofNat (n + 1)

theorem startsWith_append (lead s : Text) : startsWith lead (lead ++ s) = true := by
  induction lead with
  | nil => rfl
  | cons c lead ih => simpa [startsWith, after?] using ih

theorem after?_eq_some {lead s rest : Text} : after? lead s = some rest ↔ s = lead ++ rest := by
  induction lead generalizing s with
  | nil => simp [after?, eq_comm]
  | cons a lead ih =>
    cases s with
    | nil => simp [after?]
    | cons b s =>
      by_cases h : a = b
      · simp [after?, h, ih]
      · simp [after?, h, Ne.symm h]

end Text

end Reckoner
