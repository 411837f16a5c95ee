import Reckoner.Number.Layout
import Reckoner.Proofs.Number.Decimal
import Reckoner.Proofs.Text.Runs

/-! Decimals in positional text.  A text with one point at most stands for the number of its digits,
and the positional text of a decimal stands for the number of the decimal. -/

namespace Reckoner

/-! ### The values of digits -/

theorem digitsValue_eq (digits : Text) : digitsValue digits = Nat.ofDigitChars 10 digits 0 := by
  rw [digitsValue, Nat.ofDigitChars_eq_foldl]
  simp only [Nat.mul_comm]

theorem digitsValue_ofNat (n : ℕ) : digitsValue (Text.ofNat n) = n := by
  rw [digitsValue_eq, Text.ofNat, Nat.ofDigitChars_ten_toDigits]

theorem digitsValue_zeros_append (k : ℕ) (digits : Text) :
    digitsValue (List.replicate k '0' ++ digits) = digitsValue digits := by
  rw [digitsValue_eq, digitsValue_eq, Nat.ofDigitChars_append, Nat.ofDigitChars_replicate_zero,
    Nat.mul_zero]

theorem digitsValue_append_zeros (digits : Text) (k : ℕ) :
    digitsValue (digits ++ List.replicate k '0') = digitsValue digits * 10 ^ k := by
  rw [digitsValue_eq, digitsValue_eq, Nat.ofDigitChars_append, Nat.ofDigitChars_replicate_zero,
    Nat.mul_comm]

theorem ofDigitChars_lt {digits : Text} (h : ∀ c ∈ digits, c.isDigit = true) (n : ℕ) :
    Nat.ofDigitChars 10 digits n < (n + 1) * 10 ^ digits.length := by
  induction digits generalizing n with
  | nil => simp
  | cons c digits ih =>
    obtain ⟨hc, hdigits⟩ := List.forall_mem_cons.mp h
    have hdigit : c.toNat - '0'.toNat < 10 := by
      have := toNat_of_isDigit hc
      have hzero : '0'.toNat = 48 := rfl
      omega
    rw [Nat.ofDigitChars_cons, List.length_cons, pow_succ']
    calc Nat.ofDigitChars 10 digits (10 * n + (c.toNat - '0'.toNat))
        < (10 * n + (c.toNat - '0'.toNat) + 1) * 10 ^ digits.length := ih hdigits _
      _ ≤ (n + 1) * 10 * 10 ^ digits.length := Nat.mul_le_mul_right _ (by omega)
      _ = (n + 1) * (10 * 10 ^ digits.length) := by ring

theorem length_ofNat_digitsValue {digits : Text} (hne : digits ≠ [])
    (h : ∀ c ∈ digits, c.isDigit = true) :
    (Text.ofNat (digitsValue digits)).length ≤ digits.length := by
  rw [Text.ofNat, Nat.length_toDigits_le_iff (by decide) (List.length_pos_iff.mpr hne),
    digitsValue_eq]
  simpa using ofDigitChars_lt h 0

section Numerals

variable {n k : ℕ}

theorem ofNat_of_ten_le (h : 10 ≤ n) :
    Text.ofNat n = Text.ofNat (n / 10) ++ [Nat.digitChar (n % 10)] := by
  rw [Text.ofNat, Nat.toDigits_eq_if (by decide), if_neg (Nat.not_lt.mpr h)]
  rfl

theorem getLast?_ofNat (n : ℕ) : (Text.ofNat n).getLast? = some (Nat.digitChar (n % 10)) := by
  rcases Nat.lt_or_ge n 10 with h | h
  · rw [Text.ofNat, Nat.toDigits_of_lt_base h, Nat.mod_eq_of_lt h]
    rfl
  · rw [ofNat_of_ten_le h, List.getLast?_concat]

theorem ofNat_mul_pow (hn : 0 < n) (k : ℕ) :
    Text.ofNat (n * 10 ^ k) = Text.ofNat n ++ List.replicate k '0' := by
  induction k with
  | zero => simp
  | succ k ih =>
    have hpos : 0 < n * 10 ^ k := Nat.mul_pos hn (Nat.pow_pos (by decide))
    rw [pow_succ, ← mul_assoc, ofNat_of_ten_le (by omega), Nat.mul_div_cancel _ (by decide),
      Nat.mul_mod_left, ih, List.append_assoc, List.replicate_succ']
    rfl

theorem take_ofNat (h : k < (Text.ofNat n).length) :
    (Text.ofNat n).take ((Text.ofNat n).length - k) = Text.ofNat (n / 10 ^ k) := by
  induction k generalizing n with
  | zero => simp
  | succ k ih =>
    have hn : 10 ≤ n := by
      by_contra hlt
      rw [Text.ofNat, Nat.toDigits_of_lt_base (Nat.lt_of_not_le hlt)] at h
      simp at h
    rw [ofNat_of_ten_le hn, List.length_append, List.length_singleton] at h ⊢
    rw [Nat.add_sub_add_right, List.take_append_of_le_length (Nat.sub_le _ _), ih (by omega),
      Nat.div_div_eq_div_mul, ← pow_succ']

theorem digitsValue_append (digits more : Text) :
    digitsValue (digits ++ more) = digitsValue digits * 10 ^ more.length + digitsValue more := by
  rw [digitsValue_eq, digitsValue_eq, digitsValue_eq, Nat.ofDigitChars_append,
    Nat.ofDigitChars_eq_ofDigitChars_zero, Nat.mul_comm]

/-- A number with a point in it has the same digits, and its last one at the end. -/
theorem withPoint_ofNat (n k : ℕ) : ∃ fraction,
    Decimal.withPoint (Text.ofNat n) (k + 1) = Text.ofNat (n / 10 ^ (k + 1)) ++ '.' :: fraction ∧
      fraction.length = k + 1 ∧ (∀ c ∈ fraction, c.isDigit = true) ∧
      fraction.getLast? = some (Nat.digitChar (n % 10)) ∧
      digitsValue (Text.ofNat (n / 10 ^ (k + 1)) ++ fraction) = n := by
  obtain ⟨padded, hpadded⟩ : ∃ padded, padded =
      List.replicate (k + 1 + 1 - (Text.ofNat n).length) '0' ++ Text.ofNat n := ⟨_, rfl⟩
  have hlength : padded.length = k + 1 + 1 - (Text.ofNat n).length + (Text.ofNat n).length := by
    rw [hpadded, List.length_append, List.length_replicate]
  have hwhole : padded.take (padded.length - (k + 1)) = Text.ofNat (n / 10 ^ (k + 1)) := by
    rcases Nat.lt_or_ge (k + 1) (Text.ofNat n).length with hlt | hge
    · have hnone : k + 1 + 1 - (Text.ofNat n).length = 0 := Nat.sub_eq_zero_of_le hlt
      rw [hnone, List.replicate_zero, List.nil_append] at hpadded
      rw [hpadded, take_ofNat hlt]
    · -- The number is below one, and there is a zero in front of its digits.
      have hzero : n / 10 ^ (k + 1) = 0 :=
        Nat.div_eq_of_lt (lt_of_lt_of_le (lt_pow_digitCount n) (Nat.pow_le_pow_right (by decide) hge))
      obtain ⟨j, hj⟩ : ∃ j, k + 1 + 1 - (Text.ofNat n).length = j + 1 :=
        ⟨k + 1 - (Text.ofNat n).length, by omega⟩
      rw [hzero, show padded.length - (k + 1) = 1 by omega, hpadded, hj]
      rfl
  refine ⟨padded.drop (padded.length - (k + 1)), ?_, ?_, fun c hc => ?_, ?_, ?_⟩
  · rw [← hwhole, hpadded]
    rfl
  · rw [List.length_drop]
    omega
  · rcases List.mem_append.mp (hpadded ▸ List.mem_of_mem_drop hc) with hc | hc
    · obtain ⟨-, rfl⟩ := List.mem_replicate.mp hc
      rfl
    · exact isDigit_of_mem_ofNat hc
  · rw [List.getLast?_drop, if_neg (by omega), hpadded, List.getLast?_append, getLast?_ofNat]
    rfl
  · rw [← hwhole, List.take_append_drop, hpadded, digitsValue_zeros_append, digitsValue_ofNat]

end Numerals

theorem ofInt_eq (n : ℤ) :
    Text.ofInt n = Double.signText (decide (n < 0)) ++ Text.ofNat n.natAbs := by
  cases n with
  | ofNat n => rfl
  | negSucc n => simp [Text.ofInt, Double.signText, Int.negSucc_lt_zero]

/-! ### Literals -/

/-- Digits, of which there is at least one, and then a point with more digits or no point. -/
inductive IsLiteral : Text → Prop
  | whole {digits : Text} (hne : digits ≠ []) (h : ∀ c ∈ digits, c.isDigit = true) :
      IsLiteral digits
  | pointed {digits fraction : Text} (hne : digits ≠ []) (h : ∀ c ∈ digits, c.isDigit = true)
      (hfraction : ∀ c ∈ fraction, c.isDigit = true) : IsLiteral (digits ++ '.' :: fraction)

namespace Decimal

theorem takeWhile_ne_point {digits : Text} (h : ∀ c ∈ digits, c.isDigit = true) (rest : Text) :
    (digits ++ rest).takeWhile (· != '.') = digits ++ rest.takeWhile (· != '.') ∧
      (digits ++ rest).dropWhile (· != '.') = rest.dropWhile (· != '.') := by
  have hne : ∀ c ∈ digits, (c != '.') = true := by
    intro c hc
    rw [bne_iff_ne]
    rintro rfl
    exact absurd (h _ hc) (by decide)
  exact ⟨List.takeWhile_append_of_pos hne, List.dropWhile_append_of_pos hne⟩

theorem ofLiteral_whole {digits : Text} (h : ∀ c ∈ digits, c.isDigit = true) :
    ofLiteral digits = ⟨digitsValue digits, 0⟩ := by
  obtain ⟨htake, hdrop⟩ := takeWhile_ne_point h []
  rw [List.append_nil] at htake hdrop
  rw [ofLiteral, htake, hdrop]
  simp [ofDigits]

theorem ofLiteral_pointed {digits fraction : Text} (h : ∀ c ∈ digits, c.isDigit = true) :
    ofLiteral (digits ++ '.' :: fraction) =
      ⟨digitsValue (digits ++ fraction), -fraction.length⟩ := by
  obtain ⟨htake, hdrop⟩ := takeWhile_ne_point h ('.' :: fraction)
  rw [ofLiteral, htake, hdrop]
  simp [ofDigits]

/-- A decimal without an exponent is a literal for the same number. -/
theorem positional_spec (decimal : Decimal) :
    IsLiteral decimal.positional ∧ (ofLiteral decimal.positional).value = decimal.value := by
  obtain ⟨digits, exponent⟩ := decimal
  cases exponent with
  | ofNat k =>
    have hdigits : ∀ c ∈ Text.ofNat digits ++ List.replicate k '0', c.isDigit = true := by
      intro c hc
      rcases List.mem_append.mp hc with hc | hc
      · exact isDigit_of_mem_ofNat hc
      · obtain ⟨-, rfl⟩ := List.mem_replicate.mp hc
        rfl
    have hne : Text.ofNat digits ++ List.replicate k '0' ≠ [] := by
      simp [Text.ofNat, Nat.toDigits_ne_nil]
    refine ⟨.whole hne hdigits, ?_⟩
    rw [positional]
    dsimp only
    rw [ofLiteral_whole hdigits, digitsValue_append_zeros, digitsValue_ofNat]
    simp [value]
  | negSucc k =>
    obtain ⟨fraction, htext, hlength, hfraction, -, hvalue⟩ := withPoint_ofNat digits k
    have hwhole : ∀ c ∈ Text.ofNat (digits / 10 ^ (k + 1)), c.isDigit = true :=
      fun c hc => isDigit_of_mem_ofNat hc
    rw [positional]
    dsimp only
    rw [htext, ofLiteral_pointed hwhole, hvalue, hlength]
    exact ⟨.pointed (ofNat_ne_nil _) hwhole hfraction, rfl⟩

end Decimal

/-! ### Numbers in full -/

/-- `text` writes the number `x` in full: its whole part without a zero in front, and then a point
with the digits up to the last one that is not zero, if there is any. -/
inductive InFull : (text : Text) → (x : ℚ) → Prop
  | whole (n : ℕ) : InFull (Text.ofNat n) n
  | pointed (n : ℕ) {fraction : Text} {last : Char} (h : ∀ c ∈ fraction, c.isDigit = true)
      (hlast : fraction.getLast? = some last) (hne : last ≠ '0') :
      InFull (Text.ofNat n ++ '.' :: fraction) (n + digitsValue fraction / 10 ^ fraction.length)

/-- A decimal whose last digit is not zero is written in full. -/
theorem Decimal.positional_inFull {decimal : Decimal}
    (h : decimal.digits % 10 = 0 → decimal = ⟨0, 0⟩) :
    InFull decimal.positional decimal.value := by
  have hread := decimal.positional_spec.2
  obtain ⟨digits, exponent⟩ := decimal
  cases exponent with
  | ofNat k =>
    have htext : positional ⟨digits, .ofNat k⟩ = Text.ofNat (digits * 10 ^ k) := by
      rcases Nat.eq_zero_or_pos digits with rfl | hpos
      · obtain ⟨-, hk⟩ := Decimal.mk.inj (h rfl)
        obtain rfl : k = 0 := Int.ofNat_inj.mp hk
        rfl
      · exact (ofNat_mul_pow hpos k).symm
    have hvalue : (⟨digits, .ofNat k⟩ : Decimal).value = (digits * 10 ^ k : ℕ) := by
      simp [value]
    rw [htext, hvalue]
    exact .whole _
  | negSucc k =>
    obtain ⟨fraction, htext, -, hdigits, hlast, -⟩ := withPoint_ofNat digits k
    have hne : Nat.digitChar (digits % 10) ≠ '0' := by
      refine digitChar_ne_zero _ (Nat.mod_lt _ (by decide)) (Nat.pos_of_ne_zero fun hzero => ?_)
      cases h hzero
    have htext : positional ⟨digits, .negSucc k⟩ =
        Text.ofNat (digits / 10 ^ (k + 1)) ++ '.' :: fraction := htext
    rw [htext, ofLiteral_pointed fun c hc => isDigit_of_mem_ofNat hc, digitsValue_append,
      digitsValue_ofNat, value] at hread
    have hfull : InFull _ _ := .pointed (digits / 10 ^ (k + 1)) hdigits hlast hne
    rw [htext, ← hread]
    convert hfull using 1
    push_cast
    rw [zpow_neg, zpow_natCast, ← div_eq_mul_inv, add_div,
      mul_div_cancel_right₀ _ (pow_ne_zero _ (by norm_num))]

end Reckoner
