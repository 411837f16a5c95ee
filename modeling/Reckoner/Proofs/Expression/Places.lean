import Reckoner.Proofs.Expression.Lexemes
import Reckoner.Proofs.Expression.Spacing

/-! Where lexical errors point.  The scanner reads a text with plain signs and without white space.
Each character of it stands for one of the text as it was given, and where an error is reported,
that one is found at the same place among the characters that are not white space. -/

namespace Reckoner

section Places

variable {c d : Char} {s w rest : Text}

/-- A character that is read is the plain form of one of the text, whose offset is found with it. -/
theorem exists_source (h : normalized s = w ++ d :: rest) (position : ℕ) :
    ∃ before c after, s = before ++ c :: after ∧ isBlank c = false ∧ keypadForm c = d ∧
      normalized before = w ∧ normalized after = rest ∧
      (offsetsFrom position s)[w.length]? = some (position + before.length) := by
  induction s generalizing w position with
  | nil => simp [normalized, Text.unspaced] at h
  | cons b s ih =>
    cases hb : isBlank b with
    | true =>
      have hskip (t : Text) : normalized (b :: t) = normalized t := by
        rw [normalized_cons, isBlank_keypadForm, if_pos hb]
      rw [hskip] at h
      obtain ⟨before, c, after, rfl, hc, hd, rfl, rfl, hoffset⟩ := ih h (position + 1)
      refine ⟨b :: before, c, after, rfl, hc, hd, hskip before, rfl, ?_⟩
      rw [offsetsFrom, if_pos hb, hoffset, List.length_cons]
      congr 1
      omega
    | false =>
      rw [normalized_cons_of_not_blank hb] at h
      cases w with
      | nil =>
        obtain ⟨hd, hrest⟩ := List.cons.inj h
        refine ⟨[], b, s, rfl, hb, hd, rfl, hrest, ?_⟩
        rw [offsetsFrom, if_neg (by simp [hb])]
        rfl
      | cons e w =>
        obtain ⟨rfl, hw⟩ := List.cons.inj h
        obtain ⟨before, c, after, rfl, hc, hd, rfl, rfl, hoffset⟩ := ih hw (position + 1)
        refine ⟨b :: before, c, after, rfl, hc, hd, normalized_cons_of_not_blank hb before, rfl, ?_⟩
        rw [offsetsFrom, if_neg (by simp [hb]), List.length_cons, List.getElem?_cons_succ, hoffset,
          List.length_cons]
        congr 1
        omega

/-- Digits and points are read as they are. -/
theorem takeWhile_isNumeral_map_keypadForm (s : Text) :
    (s.map keypadForm).takeWhile isNumeral = s.takeWhile isNumeral := by
  induction s with
  | nil => rfl
  | cons c s ih =>
    have hform : isNumeral (keypadForm c) = isNumeral c :=
      apply_keypadForm (fun _ => joins_of_isNumeral) c
    cases hc : isNumeral c with
    | true =>
      rw [List.map_cons, List.takeWhile_cons_of_pos (hform.trans hc), List.takeWhile_cons_of_pos hc,
        ih, keypadForm_of_isNumeral hc]
    | false =>
      rw [List.map_cons, List.takeWhile_cons_of_neg (by simp [hform, hc]),
        List.takeWhile_cons_of_neg (by simp [hc])]

/-- What is reported where no token can be read are characters of the text itself. -/
theorem Stuck.source {reason : LexReason} {lexeme : Text} (h : Stuck (d :: rest) reason lexeme)
    (hd : keypadForm c = d) (hblank : isBlank c = false) {after : Text}
    (hrest : normalized after = rest) :
    reason = .unexpectedCharacter ∧ lexeme = [c] ∨
      reason = .invalidNumber ∧ lexeme <+: Text.unspaced (c :: after) := by
  have htext : normalized (c :: after) = d :: rest := by
    rw [normalized_cons_of_not_blank hblank, hd, hrest]
  generalize htail : d :: rest = tail at h
  cases h with
  | number =>
    right
    refine ⟨rfl, ?_⟩
    rw [← htail, ← htext, normalized_eq, takeWhile_isNumeral_map_keypadForm]
    exact List.takeWhile_prefix _
  | character hb hnone =>
    left
    obtain ⟨rfl, rfl⟩ := List.cons.inj htail
    refine ⟨rfl, ?_⟩
    -- A sign of a keypad is read as an operator, so it is none of these.
    rcases keypadForm_eq_self_or c with hself | hsign | hsign | hsign
    · rw [← hd, hself]
    · exact absurd ⟨rest, rfl⟩ (hnone [d] (.operator .div) (.operator (by rw [← hd, hsign]; rfl)))
    · exact absurd ⟨rest, rfl⟩ (hnone [d] (.operator .mul) (.operator (by rw [← hd, hsign]; rfl)))
    · exact absurd ⟨rest, rfl⟩ (hnone [d] (.operator .sub) (.operator (by rw [← hd, hsign]; rfl)))

theorem Stuck.ne_nil {reason : LexReason} {lexeme : Text} (h : Stuck rest reason lexeme) :
    rest ≠ [] := by
  rintro rfl
  cases h with
  | number h => simp at h

/-- A text whose normalized form has tokens has no lexical error. -/
theorem explain_ne_lex {tokens : List Token} (h : scan (normalized s) = .ok tokens)
    (error : LexError) : explain s ≠ .error (.lex error) := by
  rw [explain, h]
  change (toPostfix tokens).mapError ExpressionError.parse ≠ _
  intro heq
  cases hform : toPostfix tokens with
  | ok form =>
    rw [hform] at heq
    cases heq
  | error fault =>
    rw [hform] at heq
    cases heq

/-- Lexical errors point into the text as it was given.  There is a character at the place of the
error, which is no white space, and the text before it has no lexical error.  An unexpected character
is that character itself, and an invalid number is what the text goes on with from there, white space
apart.  The place of the error in the text that the scanner reads always has its place in the text. -/
theorem lexError_inSource {error : LexError} (h : explain s = .error (.lex error)) :
    ∃ c, s[error.position]? = some c ∧ isBlank c = false ∧
      (∀ earlier, explain (s.take error.position) ≠ .error (.lex earlier)) ∧
      (error.reason = .unexpectedCharacter ∧ error.lexeme = [c] ∨
        error.reason = .invalidNumber ∧ error.lexeme <+: Text.unspaced (s.drop error.position)) ∧
      ∃ offset, scan (normalized s) = .error { error with position := offset } ∧
        (offsetsFrom 0 s)[offset]? = some error.position := by
  cases hscan : scan (normalized s) with
  | ok tokens => exact absurd h (explain_ne_lex hscan error)
  | error scanned =>
    rw [explain, hscan] at h
    obtain rfl := ExpressionError.lex.inj (Except.error.inj h)
    obtain ⟨w, rest, tokens, htext, hposition, hbefore, hstuck⟩ := stuck_of_scanFrom hscan
    obtain ⟨d, rest, rfl⟩ := List.exists_cons_of_ne_nil hstuck.ne_nil
    obtain ⟨before, c, after, rfl, hc, hd, hw, hrest, hoffset⟩ := exists_source htext 0
    rw [Nat.zero_add] at hposition hoffset
    rw [← hposition] at hoffset
    have hplace : sourcePosition (before ++ c :: after) scanned.position = before.length := by
      rw [sourcePosition, hoffset]
      rfl
    dsimp only
    rw [hplace, List.take_left, List.drop_left]
    refine ⟨c, by simp, hc, ?_, hstuck.source hd hc hrest, scanned.position, rfl, hoffset⟩
    exact explain_ne_lex (by rw [hw]; exact hbefore.scanFrom_eq)

/-- A number in three pieces, behind white space and a sign of a keypad. -/
theorem lexError_inSource_pieces :
    explain "\t2 × 1. 5\n.0 +" = .error (.lex ⟨.invalidNumber, "1.5.0", 5⟩) ∧
      (∀ earlier, explain "\t2 × " ≠ .error (.lex earlier)) ∧
      "1.5.0".toList <+: Text.unspaced "1. 5\n.0 +" := by
  have h : explain "\t2 × 1. 5\n.0 +" = .error (.lex ⟨.invalidNumber, "1.5.0", 5⟩) := by
    decide +kernel
  obtain ⟨c, -, -, hbefore, ⟨hreason, -⟩ | ⟨-, hlexeme⟩, -⟩ := lexError_inSource h
  · cases hreason
  · exact ⟨h, hbefore, hlexeme⟩

end Places

end Reckoner
