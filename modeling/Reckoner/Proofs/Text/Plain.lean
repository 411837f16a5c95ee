import Reckoner.Expression.Lexer
import Reckoner.Proofs.Text.Runs
import Reckoner.Text.Caseless
import Reckoner.Text.Digit
import Reckoner.Text.Lowercase

/-! Plain characters: those of ASCII, the white space of Unicode and the signs of a keypad.  Every
text that has tokens consists of them.  Beyond ASCII they are few, so what those satisfy is decided
by going through their codes.  Lower case is that of ASCII here, which changes the capitals alone,
and what a character is for the scanner does not depend on it. -/

namespace Reckoner

section Decidable

variable {p : Char → Prop} [DecidablePred p]

-- What the characters of a text satisfy is decided along the text: to go through all characters, as
-- they are finitely many, would be too long.

instance (priority := high) Text.decidableForall (s : Text) : Decidable (∀ c ∈ s, p c) :=
  List.decidableBAll p s

instance (priority := high) Text.decidableExists (s : Text) : Decidable (∃ c ∈ s, p c) :=
  List.decidableBEx p s

instance (priority := high) decidableForallMem (c? : Option Char) : Decidable (∀ c ∈ c?, p c) :=
  c?.decidableForallMem

instance (priority := high) decidableExistsMem (c? : Option Char) : Decidable (∃ c ∈ c?, p c) :=
  c?.decidableExistsMem

end Decidable

/-- The codes of the plain characters from 128 on. -/
def wideCodes : List Nat :=
  [0x85, 0xa0, 0xd7, 0xf7, 0x1680] ++ List.range' 0x2000 11 ++
    [0x2014, 0x2028, 0x2029, 0x202f, 0x205f, 0x2212, 0x3000]

/-- Whether a character is plain. -/
def IsPlain (c : Char) : Prop := c.toNat < 128 ∨ c.toNat ∈ wideCodes

instance (c : Char) : Decidable (IsPlain c) :=
  inferInstanceAs (Decidable (c.toNat < 128 ∨ c.toNat ∈ wideCodes))

/-- What the characters with certain codes satisfy, a character with such a code does. -/
theorem forall_codes {p : Char → Prop} {codes : List Nat} (h : ∀ n ∈ codes, p (Char.ofNat n))
    {c : Char} (hc : c.toNat ∈ codes) : p c := by
  have := h c.toNat hc
  rwa [Char.ofNat_toNat] at this

section Plain

variable {c : Char}

/-! ### Which characters are plain -/

theorem isPlain_of_isBlank (h : isBlank c = true) : IsPlain c := by
  refine Decidable.or_iff_not_imp_left.mpr ?_
  intro hwide
  simp only [isBlank, Bool.or_eq_true, Bool.and_eq_true, decide_eq_true_eq, beq_iff_eq] at h
  simp only [wideCodes, List.mem_append, List.mem_range'_1, List.mem_cons, List.not_mem_nil,
    or_false]
  rcases h with (((((((((h | h) | h) | h) | h) | h) | h) | h) | h) | h) | h
  all_goals omega

theorem isPlain_of_keypadForm (h : IsPlain (keypadForm c)) : IsPlain c := by
  rw [keypadForm.eq_def] at h
  split at h
  · decide
  · decide
  · decide
  · decide
  · exact h

theorem toNat_of_isUpper (h : c.isUpper = true) : 65 ≤ c.toNat ∧ c.toNat ≤ 90 := by
  have h : 'A'.val ≤ c.val ∧ c.val ≤ 'Z'.val := of_decide_eq_true h
  exact ⟨UInt32.le_iff_toNat_le.mp h.1, UInt32.le_iff_toNat_le.mp h.2⟩

theorem toNat_of_isLower (h : c.isLower = true) : 97 ≤ c.toNat ∧ c.toNat ≤ 122 := by
  obtain ⟨hfirst, hlast⟩ := Bool.and_eq_true_iff.mp h
  exact ⟨UInt32.le_iff_toNat_le.mp (of_decide_eq_true hfirst),
    UInt32.le_iff_toNat_le.mp (of_decide_eq_true hlast)⟩

theorem toNat_of_isAlpha (h : c.isAlpha = true) :
    65 ≤ c.toNat ∧ c.toNat ≤ 90 ∨ 97 ≤ c.toNat ∧ c.toNat ≤ 122 :=
  (Bool.or_eq_true_iff.mp h).imp toNat_of_isUpper toNat_of_isLower

theorem isAlphanum_of_isAlpha (h : c.isAlpha = true) : c.isAlphanum = true :=
  Bool.or_eq_true_iff.mpr (.inl h)

theorem isAlphanum_of_isDigit (h : c.isDigit = true) : c.isAlphanum = true :=
  Bool.or_eq_true_iff.mpr (.inr h)

theorem toNat_of_isAlphanum (h : c.isAlphanum = true) : 48 ≤ c.toNat ∧ c.toNat ≤ 122 := by
  rcases Bool.or_eq_true_iff.mp h with h | h
  · have := toNat_of_isAlpha h
    omega
  · have := toNat_of_isDigit h
    omega

theorem isPlain_of_isAlphanum (h : c.isAlphanum = true) : IsPlain c := by
  have := toNat_of_isAlphanum h
  exact .inl (by omega)

theorem isNumeral_cases (h : isNumeral c = true) : c.isAlphanum = true ∨ c = '.' := by
  rw [isNumeral, Bool.or_eq_true, beq_iff_eq] at h
  exact h.imp_left isAlphanum_of_isDigit

theorem isPlain_of_isNumeral (h : isNumeral c = true) : IsPlain c := by
  rcases isNumeral_cases h with h | rfl
  · exact isPlain_of_isAlphanum h
  · decide

/-! ### White space, digits and the signs of a keypad -/

theorem keypadForm_eq_self_or (c : Char) :
    keypadForm c = c ∨ keypadForm c = '/' ∨ keypadForm c = '*' ∨ keypadForm c = '-' := by
  rw [keypadForm.eq_def]
  split <;> simp

/-- A character that does not become a sign is left alone. -/
theorem keypadForm_eq_self {p : Char → Bool} (hp : p '/' = false ∧ p '*' = false ∧ p '-' = false)
    (h : p (keypadForm c) = true) : keypadForm c = c := by
  obtain ⟨hslash, hstar, hminus⟩ := hp
  rcases keypadForm_eq_self_or c with hc | hc | hc | hc
  · exact hc
  · simp [hc, hslash] at h
  · simp [hc, hstar] at h
  · simp [hc, hminus] at h

theorem keypadForm_of_isAlphanum (h : c.isAlphanum = true) : keypadForm c = c := by
  rw [keypadForm.eq_def]
  split
  case h_5 => rfl
  all_goals cases h

theorem toNat_of_isBlank (h : isBlank c = true) : c.toNat ≤ 32 ∨ 128 ≤ c.toNat := by
  simp only [isBlank, Bool.or_eq_true, Bool.and_eq_true, decide_eq_true_eq, beq_iff_eq] at h
  omega

theorem isBlank_of_isAlphanum (h : c.isAlphanum = true) : isBlank c = false := by
  rw [Bool.eq_false_iff]
  intro hb
  have := toNat_of_isAlphanum h
  have := toNat_of_isBlank hb
  omega

theorem keypadForm_of_isNumeral (h : isNumeral c = true) : keypadForm c = c := by
  rcases isNumeral_cases h with h | rfl
  · exact keypadForm_of_isAlphanum h
  · rfl

theorem isBlank_of_isNumeral (h : isNumeral c = true) : isBlank c = false := by
  rcases isNumeral_cases h with h | rfl
  · exact isBlank_of_isAlphanum h
  · rfl

/-- A plain character is a decimal digit if it is one of ASCII. -/
theorem isDecimalDigit_of_isPlain (h : IsPlain c) : isDecimalDigit c = c.isDigit := by
  rcases h with h | h
  · cases hd : c.isDigit <;> simp [isDecimalDigit, digitValue?, h, hd]
  · exact forall_codes (p := fun c => isDecimalDigit c = c.isDigit) (by decide +kernel) h

theorem isNumeral_of_isAlpha (h : c.isAlpha = true) : isNumeral c = false := by
  rw [Bool.eq_false_iff, ne_eq, isNumeral, Bool.or_eq_true, beq_iff_eq]
  rintro (hdigit | rfl)
  · have := toNat_of_isAlpha h
    have := toNat_of_isDigit hdigit
    omega
  · cases h

end Plain

/-! ### Lower case -/

/-- What characters and their forms in lower case satisfy is decided by going through the capitals
of ASCII, as all other characters are their own forms. -/
theorem forall_toLower {p : Char → Char → Prop} (hself : ∀ c, c.toLower = c → p c c)
    (hupper : ∀ n ∈ List.range' 65 26, p (Char.ofNat n) (Char.ofNat n).toLower) (c : Char) :
    p c c.toLower := by
  by_cases h : c.val ≥ 'A'.val ∧ c.val ≤ 'Z'.val
  · refine forall_codes (p := fun c => p c c.toLower) hupper (List.mem_range'_1.mpr ?_)
    simp only [UInt32.le_iff_toNat_le, ge_iff_le] at h
    exact ⟨h.1, Nat.lt_succ_of_le h.2⟩
  · have hc : c.toLower = c := dif_neg h
    rw [hc]
    exact hself c hc

/-- What does not tell the capitals of ASCII from their small letters does not depend on case. -/
theorem apply_toLower {α : Type} (f : Char → α)
    (h : ∀ n ∈ List.range' 65 26, f (Char.ofNat n).toLower = f (Char.ofNat n)) (c : Char) :
    f c.toLower = f c :=
  forall_toLower (p := fun c d => f d = f c) (fun _ _ => rfl) h c

theorem toLower_toLower (c : Char) : c.toLower.toLower = c.toLower :=
  apply_toLower Char.toLower (by decide) c

theorem isDigit_toLower (c : Char) : c.toLower.isDigit = c.isDigit :=
  apply_toLower Char.isDigit (by decide) c

theorem isAlpha_toLower (c : Char) : c.toLower.isAlpha = c.isAlpha :=
  apply_toLower Char.isAlpha (by decide) c

theorem isAlphanum_toLower (c : Char) : c.toLower.isAlphanum = c.isAlphanum := by
  rw [Char.isAlphanum, Char.isAlphanum, isAlpha_toLower, isDigit_toLower]

theorem isNumeral_toLower (c : Char) : isNumeral c.toLower = isNumeral c :=
  apply_toLower isNumeral (by decide) c

theorem isBlank_toLower (c : Char) : isBlank c.toLower = isBlank c :=
  apply_toLower isBlank (by decide) c

theorem isDecimalDigit_toLower (c : Char) : isDecimalDigit c.toLower = isDecimalDigit c :=
  apply_toLower isDecimalDigit (by decide) c

theorem ofSign?_toLower (c : Char) :
    Item.ofSign? (keypadForm c.toLower) = Item.ofSign? (keypadForm c) :=
  apply_toLower (fun c => Item.ofSign? (keypadForm c)) (by decide) c

theorem toLower_of_isNumeral {c : Char} : isNumeral c = true → c.toLower = c :=
  forall_toLower (p := fun c d => isNumeral c = true → d = c) (fun _ _ _ => rfl) (by decide) c

theorem keypadForm_toLower (c : Char) : keypadForm c.toLower = (keypadForm c).toLower := by
  refine forall_toLower (p := fun c d => keypadForm d = (keypadForm c).toLower) (fun c h => ?_)
    (by decide) c
  rcases keypadForm_eq_self_or c with hc | hc | hc | hc
  · rw [hc, h]
  all_goals rw [hc]; rfl

end Reckoner
