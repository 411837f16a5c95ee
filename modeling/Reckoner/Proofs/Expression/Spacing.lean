import Reckoner.Proofs.Expression.Runs
import Reckoner.Proofs.Text.Unspaced

/-! White space within an expression.  A text is read without its white space, which makes one word of
two that it stands between; where it does not do so, the text is read just as if the scanner skipped
the white space on its way, down to the place of an error. -/

namespace Reckoner

/-- Whether `c` is read together with other such characters beside it: a letter, a digit or a point. -/
def joins (c : Char) : Bool := c.isAlphanum || c == '.'

/-- No white space stands right between two letters, digits or points. -/
def Apart (s : Text) : Prop :=
  ∀ before c gap d after, s = before ++ c :: (gap ++ d :: after) → gap ≠ [] →
    (∀ b ∈ gap, isBlank b = true) → joins c = true → joins d = false

section Apart

variable {c d : Char} {s rest run w : Text} {p : Char → Bool}

/-! ### White space between words -/

theorem joins_cases (h : joins c = true) : c.isAlphanum = true ∨ c = '.' := by
  simpa [joins] using h

theorem isBlank_of_joins (h : joins c = true) : isBlank c = false := by
  rcases joins_cases h with h | rfl
  · exact isBlank_of_isAlphanum h
  · rfl

theorem keypadForm_of_joins (h : joins c = true) : keypadForm c = c := by
  rcases joins_cases h with h | rfl
  · exact keypadForm_of_isAlphanum h
  · rfl

theorem joins_of_isNumeral (h : isNumeral c = true) : joins c = true := by
  rcases isNumeral_cases h with h | rfl
  · simp [joins, h]
  · rfl

theorem joins_of_isAlphanum (h : c.isAlphanum = true) : joins c = true := by
  simp [joins, h]

theorem apart_nil : Apart [] := by
  intro before c gap d after h
  simp at h

theorem Apart.tail (h : Apart (c :: s)) : Apart s := by
  intro before c' gap d after hs
  exact h (c :: before) c' gap d after (congrArg _ hs)

theorem Apart.append_right (h : Apart (w ++ s)) : Apart s := by
  induction w with
  | nil => exact h
  | cons c w ih => exact ih h.tail

/-- The condition at the first character of a text, with the one that follows white space behind it. -/
theorem apart_cons : Apart (c :: s) ↔
    (joins c = true → s.head?.any isBlank = true → s.skipBlanks.head?.any joins = false) ∧
      Apart s := by
  constructor
  · refine fun h => ⟨fun hc hblank => ?_, h.tail⟩
    have hsplit := List.takeWhile_append_dropWhile (p := isBlank) (l := s)
    cases hd : s.skipBlanks with
    | nil => rfl
    | cons d after =>
      rw [show s.dropWhile isBlank = d :: after from hd] at hsplit
      refine h [] c (s.takeWhile isBlank) d after ?_ ?_ (fun b hb => List.mem_takeWhile_imp hb) hc
      · rw [hsplit, List.nil_append]
      · cases s with
        | nil => cases hblank
        | cons b s =>
          have hb : isBlank b = true := hblank
          rw [List.takeWhile_cons_of_pos hb]
          exact List.cons_ne_nil _ _
  · rintro ⟨hfirst, h⟩ before c' gap d after hs hne hgap hc
    cases before with
    | cons c'' before =>
      obtain ⟨-, hs⟩ := List.cons.inj hs
      exact h before c' gap d after hs hne hgap hc
    | nil =>
      obtain ⟨rfl, rfl⟩ := List.cons.inj hs
      by_contra hd
      rw [Bool.not_eq_false] at hd
      have hend : ∀ e ∈ (d :: after).head?, isBlank e = false := by
        rintro _ ⟨⟩
        exact isBlank_of_joins hd
      have hskip : Text.skipBlanks (gap ++ d :: after) = d :: after := (takeWhile_run hgap hend).2
      have hblank : (gap ++ d :: after).head?.any isBlank = true := by
        obtain ⟨b, gap, rfl⟩ := List.exists_cons_of_ne_nil hne
        exact hgap b (.head _)
      have hjoins := hfirst hc hblank
      rw [hskip] at hjoins
      exact absurd hd (Bool.eq_false_iff.mp hjoins)

/-- Whether white space stands right between two letters, digits or points can be computed. -/
instance decidableApart : (s : Text) → Decidable (Apart s)
  | [] => isTrue apart_nil
  | _ :: s => @decidable_of_iff _ _ apart_cons.symm (@instDecidableAnd _ _ inferInstance (decidableApart s))

/-! ### Runs in the normalized text -/

theorem keypadForm_of_joins_keypadForm (h : joins (keypadForm c) = true) : keypadForm c = c :=
  keypadForm_eq_self (p := joins) ⟨rfl, rfl, rfl⟩ h

theorem normalized_skipBlanks (s : Text) : normalized s.skipBlanks = normalized s :=
  normalized_congr (Text.unspaced_skipBlanks s)

theorem normalized_cons_of_not_blank (h : isBlank c = false) (s : Text) :
    normalized (c :: s) = keypadForm c :: normalized s := by
  rw [normalized_cons, isBlank_keypadForm, h]
  rfl

theorem normalized_cons_of_joins (h : joins c = true) (s : Text) :
    normalized (c :: s) = c :: normalized s := by
  rw [normalized_cons_of_not_blank (isBlank_of_joins h), keypadForm_of_joins h]

section Runs

variable (hp : ∀ d, p d = true → joins d = true) (hc : joins c = true) (h : Apart (c :: rest))

include hp

theorem apply_keypadForm (d : Char) : p (keypadForm d) = p d := by
  rw [Bool.eq_iff_iff]
  constructor
  · intro hd
    rwa [keypadForm_of_joins_keypadForm (hp _ hd)] at hd
  · intro hd
    rwa [keypadForm_of_joins (hp _ hd)]

include hc h

/-- Behind a letter, a digit or a point the next one is found only right there. -/
theorem head?_normalized : (normalized rest).head?.any p = rest.head?.any p := by
  cases rest with
  | nil => rfl
  | cons b rest =>
    cases hb : isBlank b with
    | false =>
      rw [normalized_cons_of_not_blank hb]
      exact apply_keypadForm hp b
    | true =>
      have hnot : p b = false := by
        by_contra hpb
        rw [isBlank_of_joins (hp b (by simpa using hpb))] at hb
        cases hb
      have hskip := (apart_cons.mp h).1 hc hb
      rw [← normalized_skipBlanks, show (b :: rest).head?.any p = p b from rfl, hnot]
      cases hd : Text.skipBlanks (b :: rest) with
      | nil => rfl
      | cons d after =>
        rw [hd] at hskip
        have hd' : isBlank d = false := by
          have hmem : d ∈ ((b :: rest).dropWhile isBlank).head? := by
            rw [show (b :: rest).dropWhile isBlank = d :: after from hd]
            rfl
          exact head?_dropWhile_eq_false d hmem
        rw [normalized_cons_of_not_blank hd', List.head?_cons, Option.any_some, apply_keypadForm hp]
        by_contra hpd
        exact absurd (hp d (by simpa using hpd)) (Bool.eq_false_iff.mp hskip)

/-- Runs of letters, digits or points behind another one are the same without white space. -/
theorem run_normalized : (normalized rest).takeWhile p = rest.takeWhile p ∧
    (normalized rest).dropWhile p = normalized (rest.dropWhile p) := by
  induction rest generalizing c with
  | nil => exact ⟨rfl, rfl⟩
  | cons d rest ih =>
    cases hd : p d with
    | true =>
      obtain ⟨htake, hdrop⟩ := ih (hp d hd) h.tail
      rw [normalized_cons_of_joins (hp d hd), List.takeWhile_cons_of_pos hd,
        List.takeWhile_cons_of_pos hd, List.dropWhile_cons_of_pos hd, List.dropWhile_cons_of_pos hd,
        htake, hdrop]
      exact ⟨rfl, rfl⟩
    | false =>
      have hhead := head?_normalized hp hc h
      rw [show (d :: rest).head?.any p = p d from rfl, hd] at hhead
      have hend : ∀ e ∈ (normalized (d :: rest)).head?, p e = false := fun e he => by
        rwa [Option.mem_def.mp he] at hhead
      have hnone : ([] ++ normalized (d :: rest)).takeWhile p = [] ∧
          ([] ++ normalized (d :: rest)).dropWhile p = normalized (d :: rest) :=
        takeWhile_run nofun hend
      rw [List.nil_append] at hnone
      obtain ⟨htake, hdrop⟩ := hnone
      rw [htake, hdrop, List.takeWhile_cons_of_neg (by simp [hd]),
        List.dropWhile_cons_of_neg (by simp [hd])]
      exact ⟨rfl, rfl⟩

end Runs

variable {position place : ℕ} {item : Item}

/-! ### The scanner on both texts -/

/-- Where no sign is read, there is no sign of a keypad. -/
theorem keypadForm_of_ofSign? (h : Item.ofSign? (keypadForm c) = none) : keypadForm c = c := by
  rcases keypadForm_eq_self_or c with hc | hc | hc | hc
  · exact hc
  all_goals rw [hc] at h; cases h

theorem keypadForm_keypadForm (c : Char) : keypadForm (keypadForm c) = keypadForm c := by
  rcases keypadForm_eq_self_or c with hc | hc | hc | hc
  · exact congrArg keypadForm hc
  all_goals rw [hc]; rfl

/-- A number starts in the normalized text where it starts in the text. -/
theorem startsNumber_normalized (h : Apart (c :: rest)) (hc : keypadForm c = c) :
    startsNumber c (normalized rest) = startsNumber c rest := by
  by_cases hpoint : c = '.'
  · subst hpoint
    rw [startsNumber, startsNumber,
      head?_normalized (fun d hd => joins_of_isAlphanum (isAlphanum_of_isDigit hd)) rfl h]
  · rw [startsNumber, startsNumber, beq_eq_false_iff_ne.mpr hpoint, Bool.false_and, Bool.false_and]

/-- The characters of a word that is not white space have their own places in the text. -/
theorem getElem?_offsetsFrom_append (hw : ∀ c ∈ w, isBlank c = false) (s : Text) (position j : ℕ) :
    (offsetsFrom position (w ++ s))[w.length + j]? = (offsetsFrom (position + w.length) s)[j]? := by
  induction w generalizing position with
  | nil => simp
  | cons c w ih =>
    obtain ⟨hc, hw⟩ := List.forall_mem_cons.mp hw
    rw [List.cons_append, offsetsFrom, if_neg (by simp [hc]), List.length_cons,
      Nat.add_right_comm, List.getElem?_cons_succ, ih hw]
    congr 2
    omega

/-- What is read of a text whose characters other than white space have these offsets, and what is
read of its normalized form, which is at `place`: the same items, or the same error at the place in
the normalized form to which its offset belongs. -/
inductive ReadAlike (offsets : List ℕ) (place : ℕ) :
    (direct normal : Except LexError (List Token)) → Prop
  | ok {tokens tokens' : List Token} (h : itemsOf tokens' = itemsOf tokens) :
      ReadAlike offsets place (.ok tokens) (.ok tokens')
  | error {error : LexError} {j : ℕ} (h : offsets[j]? = some error.position) :
      ReadAlike offsets place (.error error) (.error { error with position := place + j })

theorem ReadAlike.word {direct normal : Except LexError (List Token)}
    (hw : ∀ c ∈ w, isBlank c = false)
    (h : ReadAlike (offsetsFrom (position + w.length) s) (place + w.length) direct normal) :
    ReadAlike (offsetsFrom position (w ++ s)) place (direct.map (⟨item, position⟩ :: ·))
      (normal.map (⟨item, place⟩ :: ·)) := by
  cases h with
  | ok h => exact .ok (congrArg (item :: ·) h)
  | @error error j h =>
    rw [← getElem?_offsetsFrom_append hw] at h
    have herror : ReadAlike (offsetsFrom position (w ++ s)) place (.error error)
        (.error { error with position := place + (w.length + j) }) := .error h
    rwa [← Nat.add_assoc] at herror

/-- The scanner reads alike what is apart, with white space and without. -/
theorem readAlike (h : Apart s) (position place : ℕ) : ReadAlike (offsetsFrom position s) place
    (scanFrom position s) (scanFrom place (normalized s)) := by
  fun_induction scanFrom position s generalizing place
  case case1 =>
    rw [show normalized [] = [] from rfl, scanFrom.eq_def]
    exact .ok rfl
  case case2 position c rest sign hb ih =>
    have hc : isBlank c = true := isBlank_keypadForm c ▸ hb
    rw [normalized_cons, if_pos hb, offsetsFrom, if_pos hc]
    exact ih h.tail place
  case case3 position c rest sign hb hn literal hpoint =>
    have hk : sign = c := keypadForm_of_startsNumber hn
    rw [hk] at hn
    have hc := joins_of_isNumeral (isNumeral_of_startsNumber hn)
    have hrun := run_normalized (fun d => joins_of_isNumeral) hc h
    rw [normalized_cons_of_joins hc, scanFrom_number (startsNumber_normalized h hk ▸ hn), hrun.1,
      if_pos hpoint, offsetsFrom, if_neg (by simp [isBlank_of_joins hc])]
    exact .error (j := 0) rfl
  case case4 position c rest sign hb hn literal hpoint ih =>
    have hk : sign = c := keypadForm_of_startsNumber hn
    rw [hk] at hn
    have hc := joins_of_isNumeral (isNumeral_of_startsNumber hn)
    have hrun := run_normalized (fun d => joins_of_isNumeral) hc h
    have htext : c :: rest = literal ++ rest.dropWhile isNumeral := by
      rw [List.cons_append, List.takeWhile_append_dropWhile]
    have hword : ∀ d ∈ literal, isBlank d = false :=
      List.forall_mem_cons.mpr ⟨isBlank_of_joins hc, fun d hd =>
        isBlank_of_isNumeral (List.mem_takeWhile_imp hd)⟩
    rw [normalized_cons_of_joins hc, scanFrom_number (startsNumber_normalized h hk ▸ hn), hrun.1,
      if_neg hpoint, hrun.2, htext]
    exact .word hword (ih (htext ▸ h).append_right _)
  case case5 position c rest sign hb hn ha word ih =>
    have hk : sign = c := keypadForm_of_isAlpha ha
    rw [hk] at ha
    have hc := joins_of_isAlphanum (isAlphanum_of_isAlpha ha)
    have hrun := run_normalized (fun d => joins_of_isAlphanum) hc h
    have htext : c :: rest = word ++ rest.dropWhile Char.isAlphanum := by
      rw [List.cons_append, List.takeWhile_append_dropWhile]
    have hword : ∀ d ∈ word, isBlank d = false :=
      List.forall_mem_cons.mpr ⟨isBlank_of_joins hc, fun d hd =>
        isBlank_of_isAlphanum (List.mem_takeWhile_imp hd)⟩
    rw [normalized_cons_of_joins hc, scanFrom_name ha, hrun.1, hrun.2, htext]
    exact .word hword (ih (htext ▸ h).append_right _)
  case case6 position c rest sign hb hn ha item hsign ih =>
    have hc : isBlank c = false := by rw [← isBlank_keypadForm]; exact Bool.eq_false_iff.mpr hb
    rw [normalized_cons_of_not_blank hc, scanFrom_sign (by rw [keypadForm_keypadForm]; exact hsign)]
    exact .word (w := [c]) (by simpa using hc) (ih h.tail _)
  case case7 position c rest sign hb hn ha hsign =>
    have hk : keypadForm c = c := keypadForm_of_ofSign? hsign
    rw [show sign = c from hk] at hb hn ha hsign
    rw [Bool.not_eq_true] at hb hn ha
    rw [normalized_cons_of_not_blank hb, hk,
      scanFrom_unexpected hb ((startsNumber_normalized h hk).trans hn) ha hk hsign, offsetsFrom,
      if_neg (by simp [hb])]
    exact .error (j := 0) rfl

/-- A text that has tokens and is apart has the same ones without its white space, in other places. -/
theorem exists_scan_normalized {tokens : List Token} (h : Apart s) (hs : scan s = .ok tokens) :
    ∃ tokens', scan (normalized s) = .ok tokens' ∧ itemsOf tokens' = itemsOf tokens := by
  have halike := readAlike h 0 0
  rw [show scanFrom 0 s = .ok tokens from hs] at halike
  generalize hn : scanFrom 0 (normalized s) = normal at halike
  cases halike with
  | ok hitems => exact ⟨_, hn, hitems⟩

/-! ### The conversion of both texts -/

/-- The postfix form of the tokens that a text has with its white space. -/
def explainSpaced (s : Text) : Except ExpressionError (List Token) :=
  match scan s with
  | .error error => .error (.lex error)
  | .ok tokens => (toPostfix tokens).mapError .parse

theorem explainSpaced_eq_ok {output : List Token} :
    explainSpaced s = .ok output ↔ ∃ tokens, scan s = .ok tokens ∧ toPostfix tokens = .ok output := by
  rw [explainSpaced]
  cases scan s with
  | error => exact ⟨nofun, nofun⟩
  | ok tokens => cases h : toPostfix tokens <;> simp [Except.mapError, h]

/-- White space in a text that is apart makes no difference but to where tokens stand: with it and
without it the text has the same postfix form, or the same error, at the same place if the scanner
reports one. -/
theorem explain_apart (h : Apart s) :
    (explain s).map itemsOf = (explainSpaced s).map itemsOf := by
  have halike := readAlike h 0 0
  rw [explain, explainSpaced, scan, scan]
  generalize scanFrom 0 s = direct at halike ⊢
  generalize scanFrom 0 (normalized s) = normal at halike ⊢
  cases halike with
  | @ok tokens tokens' h =>
    have hmap (result : Except ParseError (List Token)) :
        (result.mapError ExpressionError.parse).map itemsOf =
          (result.map itemsOf).mapError ExpressionError.parse := by
      cases result <;> rfl
    rw [hmap, hmap, toPostfix_congr h]
  | @error error j h =>
    have hplace : sourcePosition s (0 + j) = error.position := by
      rw [sourcePosition, Nat.zero_add, h]
      rfl
    simp only [hplace]

/-- A number with two points is found at the place where it stands in the text, behind a group with
white space and with signs of a keypad. -/
theorem explain_apart_group : Apart "sin ( − .5 )\t × 1.2.3 " ∧
    (explain "sin ( − .5 )\t × 1.2.3 ").map itemsOf =
      .error (.lex ⟨.invalidNumber, "1.2.3", 16⟩) := by
  have h : Apart "sin ( − .5 )\t × 1.2.3 " := by decide
  exact ⟨h, (explain_apart h).trans (by decide +kernel)⟩

end Apart

end Reckoner
