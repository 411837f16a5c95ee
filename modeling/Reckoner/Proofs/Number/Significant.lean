import Reckoner.Expression.Shown
import Reckoner.Proofs.Number.Decimal

/-! Rounding to the significant digits that are shown.  No finite double is rounded to an infinite
one, and rounding again changes nothing: the decimal that is nearest to the rounded double need not
be the one that it was read from, but it is no further from the double, and is read as it too. -/

namespace Reckoner

/-! ### The largest double -/

/-- The largest decimal with as many digits as are shown that is a finite double. -/
def largestShown : Decimal := ⟨179769313486, 297⟩

theorem largestShown_value : largestShown.value = ((179769313486 * 10 ^ 297 : ℕ) : ℚ) := by
  rw [Decimal.value, largestShown, zpow_ofNat, Nat.cast_mul, Nat.cast_pow]
  rfl

theorem unitsOf_largest :
    unitsOf (ordinalCount - 1) = (2 ^ 53 - 1) * 2 ^ 971 * unitsPerOne := by
  have hlast : ordinalCount - 1 = 2 ^ 53 - 1 + 2045 * 2 ^ 52 := by decide
  rw [hlast, unitsOf_row (by decide) (by decide), unitsPerOne_eq]
  decide +kernel

section Significant

variable {o : ℕ}

theorem unitsOf_div_le (ho : o < ordinalCount) :
    (unitsOf o : ℚ) / unitsPerOne ≤ (((2 ^ 53 - 1) * 2 ^ 971 : ℕ) : ℚ) := by
  have hone : (0 : ℚ) < unitsPerOne := cast_unitsPerOne_pos
  have hle : unitsOf o ≤ unitsOf (ordinalCount - 1) := unitsOf_le_iff.mpr (by omega)
  rw [unitsOf_largest] at hle
  rw [div_le_iff₀ hone]
  exact_mod_cast hle

theorem rounded_digits_le_shown :
    (Decimal.rounded shownDigits (unitsOf o) unitsPerOne).digits ≤ 10 ^ shownDigits := by
  rcases Nat.eq_zero_or_pos (unitsOf o) with hzero | hpos
  · rw [hzero, Decimal.rounded, if_pos rfl]
    exact Nat.zero_le _
  · exact Decimal.rounded_digits_le hpos unitsPerOne_pos (by decide)

/-- No double is rounded beyond the largest decimal, since the largest double is closer to it than
to the next one. -/
theorem rounded_value_le (ho : o < ordinalCount) :
    (Decimal.rounded shownDigits (unitsOf o) unitsPerOne).value ≤ largestShown.value := by
  rcases Nat.eq_zero_or_pos (unitsOf o) with hzero | hpos
  · rw [hzero, Decimal.rounded, if_pos rfl, Decimal.value]
    exact (by simp : ((0 : ℕ) : ℚ) * 10 ^ (0 : ℤ) ≤ 0).trans (Decimal.value_nonneg _)
  obtain ⟨r, hr, hnear⟩ := Decimal.rounded_spec shownDigits hpos unitsPerOne_pos
  have hfirst := (Decimal.leadingPlace_spec hpos unitsPerOne_pos).1
  have hlargest := unitsOf_div_le ho
  have hdigits := rounded_digits_le_shown (o := o)
  rw [hr] at hdigits ⊢
  have hbound : Decimal.leadingPlace (unitsOf o) unitsPerOne ≤ 308 := by
    by_contra hgt
    have hpow : (((2 ^ 53 - 1) * 2 ^ 971 : ℕ) : ℚ) < 10 ^ (309 : ℤ) := by
      rw [zpow_ofNat]
      exact_mod_cast (show (2 ^ 53 - 1) * 2 ^ 971 < 10 ^ 309 by decide +kernel)
    have hstep := Decimal.zpow_mono_ten
      (show (309 : ℤ) ≤ Decimal.leadingPlace (unitsOf o) unitsPerOne by omega)
    exact absurd (lt_of_le_of_lt (hfirst.trans hlargest) hpow) (not_lt_of_ge hstep)
  obtain ⟨place, hplace⟩ : ∃ place, place = Decimal.lastPlace shownDigits (unitsOf o) unitsPerOne :=
    ⟨_, rfl⟩
  have hplace297 : place ≤ 297 := by
    rw [hplace, Decimal.lastPlace, shownDigits]
    omega
  rw [← hplace] at hnear hdigits ⊢
  rw [largestShown_value, Decimal.value]
  dsimp only at hdigits ⊢
  rcases Int.lt_or_eq_of_le hplace297 with hlt | rfl
  · have hdigits : (r : ℚ) ≤ ((10 ^ 12 : ℕ) : ℚ) := by exact_mod_cast hdigits
    have hstep := Decimal.zpow_mono_ten (show place ≤ 296 by omega)
    rw [zpow_ofNat] at hstep
    calc (r : ℚ) * 10 ^ place ≤ ((10 ^ 12 : ℕ) : ℚ) * 10 ^ 296 :=
          mul_le_mul hdigits hstep (Decimal.zpow_pos_ten _).le (Nat.cast_nonneg _)
      _ = ((10 ^ 12 * 10 ^ 296 : ℕ) : ℚ) := by rw [Nat.cast_mul, Nat.cast_pow 10 296]; rfl
      _ ≤ ((179769313486 * 10 ^ 297 : ℕ) : ℚ) := by
          exact_mod_cast (show 10 ^ 12 * 10 ^ 296 ≤ 179769313486 * 10 ^ 297 by decide +kernel)
  · have hr : r ≤ 179769313486 := by
      have hquotient : (unitsOf o : ℚ) / unitsPerOne / 10 ^ (297 : ℤ) <
          ((1797693134863 : ℕ) : ℚ) / 10 := by
        rw [div_lt_div_iff₀ (Decimal.zpow_pos_ten _) (by norm_num), zpow_ofNat]
        refine lt_of_le_of_lt (mul_le_mul_of_nonneg_right hlargest (by norm_num)) ?_
        exact_mod_cast (show (2 ^ 53 - 1) * 2 ^ 971 * 10 < 1797693134863 * 10 ^ 297 by
          decide +kernel)
      have hlow := hnear.low
      generalize (unitsOf o : ℚ) / unitsPerOne / 10 ^ (297 : ℤ) = x at hquotient hlow
      have : (r : ℚ) < ((179769313487 : ℕ) : ℚ) := by
        push_cast at hquotient ⊢
        linarith
      have : r < 179769313487 := by exact_mod_cast this
      omega
    have hr : (r : ℚ) ≤ ((179769313486 : ℕ) : ℚ) := by exact_mod_cast hr
    rw [Nat.cast_mul, Nat.cast_pow, zpow_ofNat]
    exact mul_le_mul_of_nonneg_right hr (pow_nonneg (by norm_num) _)

/-- What is shown of a finite double is read as a finite double. -/
theorem exists_roundsTo_rounded (ho : o < ordinalCount) : ∃ p, p < ordinalCount ∧
    RoundsTo ((Decimal.rounded shownDigits (unitsOf o) unitsPerOne).value * unitsPerOne) p := by
  have hone : (0 : ℚ) < unitsPerOne := cast_unitsPerOne_pos
  obtain ⟨p, hp⟩ := RoundsTo.exists_of_nonneg
    (mul_nonneg (Decimal.value_nonneg (Decimal.rounded shownDigits (unitsOf o) unitsPerOne)) hone.le)
  have hlargest : largestShown.value * unitsPerOne ≤ unitsOf (ordinalCount - 1) := by
    rw [largestShown_value, unitsOf_largest, Nat.cast_mul _ unitsPerOne]
    refine mul_le_mul_of_nonneg_right ?_ hone.le
    exact_mod_cast (show 179769313486 * 10 ^ 297 ≤ (2 ^ 53 - 1) * 2 ^ 971 by decide +kernel)
  have hle := hp.mono (RoundsTo.self (ordinalCount - 1))
    ((mul_le_mul_of_nonneg_right (rounded_value_le ho) hone.le).trans hlargest)
  have hcount : 0 < ordinalCount := by decide
  exact ⟨p, by omega, hp⟩

theorem displayRounded_finite (negative : Bool) (ho : o < ordinalCount) :
    ∃ p hp, displayRounded (.finite negative o ho) = .finite negative p hp ∧
      RoundsTo ((Decimal.rounded shownDigits (unitsOf o) unitsPerOne).value * unitsPerOne) p := by
  obtain ⟨p, hp, hrounds⟩ := exists_roundsTo_rounded ho
  exact ⟨p, hp, Decimal.toDouble_of_roundsTo hrounds hp, hrounds⟩

/-! ### Rounding again -/

theorem cast_shown : ((10 ^ shownDigits : ℕ) : ℚ) = 1000000000000 := by norm_num [shownDigits]

theorem cast_shown_pred : ((10 ^ (shownDigits - 1) : ℕ) : ℚ) = 100000000000 := by
  norm_num [shownDigits]

/-- Where the distance to the next double grows, that distance is far less than a unit of the last
digit, so a decimal above the double and the rounded one below it cannot be read as the double. -/
theorem rounded_ge_of_gap {above : ℕ} {decimal : Decimal} (ho : 0 < o)
    (hdigits : decimal.digits ≤ 10 ^ shownDigits)
    (hrow : unitsOf o = 2 ^ 52 * above) (habove : unitsOf (o + 1) = unitsOf o + above)
    (hread : RoundsTo (decimal.value * unitsPerOne) o)
    (hgt : (unitsOf o : ℚ) < decimal.value * unitsPerOne) :
    (unitsOf o : ℚ) ≤
      (Decimal.rounded shownDigits (unitsOf o) unitsPerOne).value * unitsPerOne := by
  have hone : (0 : ℚ) < unitsPerOne := cast_unitsPerOne_pos
  have hunits := unitsOf_pos.mpr ho
  obtain ⟨r, hr, -⟩ := Decimal.rounded_spec shownDigits hunits unitsPerOne_pos
  have hclose := Decimal.abs_rounded_sub_le_abs hunits unitsPerOne_pos (by decide) hdigits
  obtain ⟨hfirst, hdecade⟩ := Decimal.leadingPlace_spec hunits unitsPerOne_pos
  rw [zpow_add_one₀ (by norm_num)] at hdecade
  rw [Decimal.lastPlace_add (show 1 ≤ shownDigits by decide)] at hfirst hdecade
  obtain ⟨place, hplace⟩ : ∃ place, place = Decimal.lastPlace shownDigits (unitsOf o) unitsPerOne :=
    ⟨_, rfl⟩
  rw [← hplace] at hr hfirst hdecade
  have hs := Decimal.zpow_pos_ten place
  rw [← div_lt_iff₀ hone] at hgt
  have hhigh : decimal.value ≤ (unitsOf o : ℚ) / unitsPerOne + above / 2 / unitsPerOne := by
    have : (unitsOf (o + 1) : ℚ) = unitsOf o + above := by exact_mod_cast habove
    rw [← add_div, le_div_iff₀ hone]
    linarith [hread.high]
  have hrow : (unitsOf o : ℚ) / unitsPerOne = 2 ^ 52 * (above / unitsPerOne) := by
    rw [← mul_div_assoc]
    exact_mod_cast congrArg (fun n : ℕ => (n : ℚ) / unitsPerOne) hrow
  rw [← div_le_iff₀ hone]
  by_contra hlt
  rw [not_le] at hlt
  have hexponent : place ≤ decimal.exponent := by
    by_contra hbelow
    have hd : (decimal.digits : ℚ) ≤ ((10 ^ shownDigits : ℕ) : ℚ) := by exact_mod_cast hdigits
    have hle : decimal.value ≤ ((10 ^ shownDigits : ℕ) : ℚ) * 10 ^ (place - 1) :=
      mul_le_mul hd (Decimal.zpow_mono_ten (by omega)) (Decimal.zpow_pos_ten _).le
        (Nat.cast_nonneg _)
    rw [zpow_sub_one₀ (by norm_num)] at hle
    rw [cast_shown] at hle
    rw [cast_shown_pred] at hfirst
    linarith
  obtain ⟨z, hz⟩ := Decimal.exists_grid decimal hexponent
  rw [hr, hz, Decimal.value] at hclose
  rw [hr, Decimal.value] at hlt
  rw [hz] at hgt hhigh
  rw [div_right_comm] at hhigh
  dsimp only at hclose hlt
  have hzr : (r : ℚ) + 1 ≤ z := by
    exact_mod_cast Nat.succ_le_of_lt (Nat.cast_lt.mp
      (lt_of_mul_lt_mul_right (hlt.trans hgt) hs.le))
  have hstep : ((r : ℚ) + 1) * 10 ^ place ≤ z * 10 ^ place :=
    mul_le_mul_of_nonneg_right hzr hs.le
  rw [abs_of_neg (by linarith), abs_of_pos (by linarith)] at hclose
  rw [cast_shown_pred] at hdecade
  rw [show (2 : ℚ) ^ 52 = 4503599627370496 by norm_num] at hrow
  linarith

/-- The decimal that is rounded from a double is read as the double, if any decimal with as many
digits is. -/
theorem roundsTo_rounded {decimal : Decimal} (hdigits : decimal.digits ≤ 10 ^ shownDigits)
    (hread : RoundsTo (decimal.value * unitsPerOne) o) :
    RoundsTo ((Decimal.rounded shownDigits (unitsOf o) unitsPerOne).value * unitsPerOne) o := by
  rcases Nat.eq_zero_or_pos o with rfl | ho
  · convert RoundsTo.self 0 using 1
    rw [Decimal.rounded, unitsOf_zero, if_pos rfl, Decimal.value, Nat.cast_zero, zero_mul, zero_mul]
  have hone : (0 : ℚ) < unitsPerOne := cast_unitsPerOne_pos
  have hunits := unitsOf_pos.mpr ho
  have hclose := Decimal.abs_rounded_sub_le_abs hunits unitsPerOne_pos (by decide) hdigits
  have hscale (x : ℚ) : |x * unitsPerOne - unitsOf o| =
      |x - (unitsOf o : ℚ) / unitsPerOne| * unitsPerOne := by
    rw [← abs_of_pos hone, ← abs_mul, abs_of_pos hone, sub_mul, div_mul_cancel₀ _ hone.ne']
  refine hread.of_abs_le ?_ (mul_nonneg (Decimal.value_nonneg _) hone.le) ?_
  · rw [hscale, hscale]
    exact mul_le_mul_of_nonneg_right hclose hone.le
  · obtain ⟨q, rfl⟩ : ∃ q, o = q + 1 := ⟨o - 1, by omega⟩
    obtain ⟨below, above, hbelow, habove, -, -, heq | hrow⟩ := unitsOf_gaps q
    · refine .inr (.inr ?_)
      rw [Nat.add_sub_cancel, show q + 1 + 1 = q + 2 from rfl]
      omega
    · rcases le_or_gt (decimal.value * unitsPerOne) (unitsOf (q + 1)) with hle | hgt
      · exact .inl hle
      · exact .inr (.inl (rounded_ge_of_gap ho hdigits hrow habove hread hgt))

end Significant

end Reckoner
