import Reckoner.Expression.Evaluate
import Reckoner.Proofs.Text.Plain

/-! Texts up to white space.  A text that is stripped, or cut into words and joined again, is the
same without white space, and what has no white space in it can be counted there. -/

namespace Reckoner

namespace Text

@[simp] theorem unspaced_append (s t : Text) : unspaced (s ++ t) = unspaced s ++ unspaced t :=
  List.filter_append ..

theorem unspaced_cons_of_blank {c : Char} (s : Text) (h : isBlank c = true) :
    unspaced (c :: s) = unspaced s :=
  List.filter_cons_of_neg (by simp [h])

theorem unspaced_cons_of_not_blank {c : Char} (s : Text) (h : isBlank c = false) :
    unspaced (c :: s) = c :: unspaced s :=
  List.filter_cons_of_pos (by simp [h])

theorem unspaced_reverse (s : Text) : unspaced s.reverse = (unspaced s).reverse :=
  List.filter_reverse ..

theorem unspaced_unspaced (s : Text) : unspaced (unspaced s) = unspaced s := by
  simp [unspaced]

/-- What does not depend on white space in front of a text is the same without it. -/
theorem skipBlanks_iff {p : Text → Prop}
    (h : ∀ c s, isBlank c = true → (p (c :: s) ↔ p s)) (s : Text) : p s.skipBlanks ↔ p s := by
  induction s with
  | nil => exact Iff.rfl
  | cons c s ih =>
    cases hc : isBlank c with
    | true =>
      rw [skipBlanks, List.dropWhile_cons_of_pos hc, h c s hc]
      exact ih
    | false => rw [skipBlanks, List.dropWhile_cons_of_neg (by simp [hc])]

theorem unspaced_skipBlanks (s : Text) : unspaced s.skipBlanks = unspaced s := by
  refine (skipBlanks_iff (p := fun t => unspaced t = unspaced s) (fun c t hc => ?_) s).mpr rfl
  rw [unspaced_cons_of_blank t hc]

theorem unspaced_stripped (s : Text) : unspaced s.stripped = unspaced s := by
  have h : unspaced (skipBlanks s.skipBlanks.reverse) = (unspaced s).reverse := by
    rw [unspaced_skipBlanks, unspaced_reverse, unspaced_skipBlanks]
  rw [show s.stripped = (skipBlanks s.skipBlanks.reverse).reverse from rfl, unspaced_reverse, h,
    List.reverse_reverse]

theorem flatten_words (s : Text) : (words s).flatten = unspaced s := by
  fun_induction words s with
  | case1 => rfl
  | case2 c s h ih => rw [unspaced_cons_of_blank s h, ih]
  | case3 c h => simp [unspaced, h]
  | case4 c h d s hd ih =>
    rw [unspaced_cons_of_not_blank _ (by simpa using h), ← ih]
    rfl
  | case5 c h d s hd hw ih =>
    rw [unspaced_cons_of_not_blank _ (by simpa using h), ← ih, hw]
    rfl
  | case6 c h d s hd word rest hw ih =>
    rw [unspaced_cons_of_not_blank _ (by simpa using h), ← ih, hw]
    rfl

theorem unspaced_joined (texts : List Text) :
    unspaced (joined " " texts) = unspaced texts.flatten := by
  induction texts with
  | nil => rfl
  | cons s texts ih =>
    cases texts with
    | nil => simp [joined]
    | cons t texts =>
      have hj : joined " " (s :: t :: texts) = s ++ (" " ++ joined " " (t :: texts)) := by
        rw [joined, List.intercalate_cons_cons, List.append_assoc]
        rfl
      rw [hj, List.flatten_cons, unspaced_append, unspaced_append, unspaced_append, ← ih]
      rfl

theorem unspaced_joined_words (s : Text) : unspaced (joined " " (words s)) = unspaced s := by
  rw [unspaced_joined, flatten_words, unspaced_unspaced]

/-! ### Parentheses -/

/-- How many more parentheses the text closes than it opens. -/
def excess (s : Text) : Int := s.count ')' - s.count '('

@[simp] theorem excess_append (s t : Text) : excess (s ++ t) = excess s + excess t := by
  simp only [excess, List.count_append]
  omega

theorem excess_cons (c : Char) (s : Text) : excess (c :: s) = excess [c] + excess s :=
  excess_append [c] s

theorem excess_eq_zero {s : Text} (h : ∀ c ∈ s, c ≠ '(' ∧ c ≠ ')') : excess s = 0 := by
  rw [excess, List.count_eq_zero.mpr fun hs => (h _ hs).2 rfl,
    List.count_eq_zero.mpr fun hs => (h _ hs).1 rfl]
  rfl

theorem excess_eq_zero_of_forall {s : Text} {p : Char → Bool} (hp : p '(' = false ∧ p ')' = false)
    (h : ∀ c ∈ s, p c = true) : excess s = 0 := by
  refine excess_eq_zero fun c hc => ⟨?_, ?_⟩
  · rintro rfl
    exact absurd (h _ hc) (by simp [hp.1])
  · rintro rfl
    exact absurd (h _ hc) (by simp [hp.2])

theorem excess_unspaced (s : Text) : excess (unspaced s) = excess s := by
  rw [excess, excess, unspaced, List.count_filter (by decide), List.count_filter (by decide)]

end Text

/-! ### Normalized texts -/

theorem isBlank_keypadForm (c : Char) : isBlank (keypadForm c) = isBlank c := by
  rw [keypadForm.eq_def]
  split <;> rfl

theorem normalized_cons (c : Char) (s : Text) : normalized (c :: s) =
    if isBlank (keypadForm c) then normalized s else keypadForm c :: normalized s := by
  cases h : isBlank (keypadForm c) <;> simp [normalized, Text.unspaced, h]

theorem normalized_append (s t : Text) : normalized (s ++ t) = normalized s ++ normalized t := by
  simp [normalized]

theorem normalized_eq (s : Text) : normalized s = (Text.unspaced s).map keypadForm := by
  rw [normalized, Text.unspaced, Text.unspaced, List.filter_map]
  refine congrArg _ (List.filter_congr fun c _ => ?_)
  exact congrArg not (isBlank_keypadForm c)

/-- White space plays no part in what a text is read as. -/
theorem normalized_congr {s t : Text} (h : Text.unspaced s = Text.unspaced t) :
    normalized s = normalized t := by
  rw [normalized_eq, normalized_eq, h]

theorem count_keypadForm {c : Char} (s : Text) (hk : keypadForm c = c)
    (hc : c ≠ '/' ∧ c ≠ '*' ∧ c ≠ '-') : (s.map keypadForm).count c = s.count c := by
  rw [List.count, List.countP_map]
  refine List.countP_congr fun d _ => ?_
  have hd : keypadForm d = c ↔ d = c := by
    constructor
    · rintro rfl
      rcases keypadForm_eq_self_or d with hd | hd | hd | hd
      · exact hd.symm
      · exact absurd hd hc.1
      · exact absurd hd hc.2.1
      · exact absurd hd hc.2.2
    · rintro rfl
      exact hk
  simp [hd]

theorem excess_map_keypadForm (s : Text) : Text.excess (s.map keypadForm) = Text.excess s := by
  rw [Text.excess, count_keypadForm s rfl (by decide), count_keypadForm s rfl (by decide)]
  rfl

theorem excess_normalized (s : Text) : Text.excess (normalized s) = Text.excess s := by
  rw [normalized, Text.excess_unspaced, excess_map_keypadForm]

end Reckoner
