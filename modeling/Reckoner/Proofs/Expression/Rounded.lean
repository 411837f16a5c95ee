import Reckoner.Proofs.Expression.Display
import Reckoner.Proofs.Number.Distinct
import Reckoner.Proofs.Number.Exact

/-! What is shown of a result is its value, correctly rounded.  A whole number below the limit is
written in full.  Any other number is rounded to the digits that are shown, read as a double, and
written from there, as a whole number or from its shortest digits; this gives back the rounded
number as long as no other number with so many digits is read as that double. -/

namespace Reckoner

open Decimal

/-- `y` is `x` rounded to `count` significant digits, a tie to the even last digit. -/
def IsRounded (count : ℕ) (x y : ℚ) : Prop :=
  ∃ (first : ℤ) (digits : ℕ), (10 : ℚ) ^ first ≤ x ∧ x < 10 ^ (first + 1) ∧
    NearestNat (x / 10 ^ (first - (count - 1))) digits ∧
      y = digits * (10 : ℚ) ^ (first - (count - 1))

theorem isRounded_rounded {n d : ℕ} (count : ℕ) (hn : 0 < n) (hd : 0 < d) :
    IsRounded count ((n : ℚ) / d) (rounded count n d).value := by
  obtain ⟨r, hr, hnear⟩ := rounded_spec count hn hd
  obtain ⟨hfirst, hdecade⟩ := leadingPlace_spec hn hd
  exact ⟨leadingPlace n d, r, hfirst, hdecade, hnear, by rw [hr]; rfl⟩

section Rounded

variable {o p whole : ℕ}

/-! ### The smallest normal double -/

theorem cast_neg_pow_lt {a b m n : ℕ} (hb : 0 < b) (h : b ^ n < a ^ m) :
    (a : ℚ) ^ (-(m : ℤ)) < (b : ℚ) ^ (-(n : ℤ)) := by
  rw [zpow_neg, zpow_neg, zpow_natCast, zpow_natCast]
  exact inv_strictAnti₀ (by positivity) (by exact_mod_cast h)

/-- The smallest normal double in steps of the last digit that is shown of it. -/
theorem smallestNormal_bounds :
    445014771701 * (10 : ℚ) ^ (-319 : ℤ) < 2 * 2 ^ (-1022 : ℤ) ∧
      (2 : ℚ) ^ (-1022 : ℤ) ≤ 222507385851 * 10 ^ (-319 : ℤ) := by
  have htwo : (2 : ℚ) ^ (-1022 : ℤ) = 1 / 2 ^ 1022 := by rw [zpow_neg, one_div, zpow_ofNat]
  have hten : (10 : ℚ) ^ (-319 : ℤ) = 1 / 10 ^ 319 := by rw [zpow_neg, one_div, zpow_ofNat]
  rw [htwo, hten, mul_one_div, mul_one_div, mul_one_div]
  constructor
  · rw [div_lt_div_iff₀ (by positivity) (by positivity)]
    exact_mod_cast (show 445014771701 * 2 ^ 1022 < 2 * 10 ^ 319 by decide +kernel)
  · rw [div_le_div_iff₀ (by positivity) (by positivity)]
    exact_mod_cast (show 1 * 10 ^ 319 ≤ 222507385851 * 2 ^ 1022 by decide +kernel)

section SmallestNormal

variable (ho : 2 ^ 52 ≤ o)

include ho

theorem le_leadingPlace_of_normal : -308 ≤ leadingPlace (unitsOf o) unitsPerOne := by
  have hdecade := (leadingPlace_spec (unitsOf_pos.mpr (by omega : 0 < o)) unitsPerOne_pos).2
  have hnormal := smallestNormal_le_iff.mpr ho
  have hbelow : (10 : ℚ) ^ (-308 : ℤ) < 2 ^ (-1022 : ℤ) := by
    exact_mod_cast cast_neg_pow_lt (by decide) (show 2 ^ 1022 < 10 ^ 308 by decide +kernel)
  by_contra hlt
  have hend := zpow_mono_ten (show leadingPlace (unitsOf o) unitsPerOne + 1 ≤ -308 by omega)
  linarith

/-- In the decade of the smallest normal double, which is itself rounded upward. -/
theorem smallestNormal_le_of_leadingPlace (h : leadingPlace (unitsOf o) unitsPerOne = -308) :
    (2 : ℚ) ^ (-1022 : ℤ) ≤ (rounded shownDigits (unitsOf o) unitsPerOne).value := by
  obtain ⟨r, hr, hnear⟩ := rounded_spec shownDigits (unitsOf_pos.mpr (by omega : 0 < o))
    unitsPerOne_pos
  have hlast : lastPlace shownDigits (unitsOf o) unitsPerOne = -319 := by
    rw [lastPlace, h, shownDigits]
    norm_num
  rw [hlast] at hr hnear
  rw [hr, value]
  dsimp only
  obtain ⟨hlow, hhigh⟩ := smallestNormal_bounds
  have hnormal := smallestNormal_le_iff.mpr ho
  have ht := zpow_pos_ten (-319)
  generalize (10 : ℚ) ^ (-319 : ℤ) = t at hlow hhigh hnear ht ⊢
  have hmany : ((445014771701 : ℕ) : ℚ) < ((2 * r + 1 : ℕ) : ℚ) := by
    have hquotient : 445014771701 < 2 * ((unitsOf o : ℚ) / unitsPerOne / t) := by
      rw [← mul_div_assoc, lt_div_iff₀ ht]
      linarith
    push_cast
    linarith [hnear.high]
  have hmany : 445014771701 < 2 * r + 1 := by exact_mod_cast hmany
  have hr : (222507385851 : ℚ) ≤ r := by exact_mod_cast (show 222507385851 ≤ r by omega)
  exact hhigh.trans (mul_le_mul_of_nonneg_right hr ht.le)

/-- Rounding does not go below the smallest normal double. -/
theorem smallestNormal_le_rounded :
    (2 : ℚ) ^ (-1022 : ℤ) ≤ (rounded shownDigits (unitsOf o) unitsPerOne).value := by
  rcases (le_leadingPlace_of_normal ho).eq_or_lt with heq | hlt
  · exact smallestNormal_le_of_leadingPlace ho heq.symm
  · -- In a higher decade already the first number is normal.
    have hunits : 0 < unitsOf o := unitsOf_pos.mpr (by omega)
    have hfirst := (leadingPlace_spec hunits unitsPerOne_pos).1
    generalize leadingPlace (unitsOf o) unitsPerOne = first at hfirst hlt
    have habove : (2 : ℚ) ^ (-1022 : ℤ) < 10 ^ (-307 : ℤ) := by
      exact_mod_cast cast_neg_pow_lt (by decide) (show 10 ^ 307 < 2 ^ 1022 by decide +kernel)
    have hvalue : (⟨1, first⟩ : Decimal).value = 10 ^ first := by
      rw [value, Nat.cast_one, one_mul]
    calc (2 : ℚ) ^ (-1022 : ℤ) ≤ 10 ^ (-307 : ℤ) := habove.le
      _ ≤ 10 ^ first := zpow_mono_ten hlt
      _ = (⟨1, first⟩ : Decimal).value := hvalue.symm
      _ ≤ (rounded shownDigits (unitsOf o) unitsPerOne).value :=
          le_rounded hunits unitsPerOne_pos (by decide)
            (Nat.one_le_pow shownDigits 10 (by decide)) (hvalue.trans_le hfirst)

/-- What is shown of a normal double is read as one. -/
theorem normal_of_roundsTo
    (h : RoundsTo ((rounded shownDigits (unitsOf o) unitsPerOne).value * unitsPerOne) p) :
    2 ^ 52 ≤ p := by
  refine (RoundsTo.self (2 ^ 52)).mono h ?_
  rw [unitsOf_smallestNormal]
  exact mul_le_mul_of_nonneg_right (smallestNormal_le_rounded ho) cast_unitsPerOne_pos.le

end SmallestNormal

/-! ### Whole numbers -/

/-- The limit of the whole numbers in full is a double, and rounding does not go below it. -/
theorem wholeLimit_le_of_roundsTo (ho : 10 ^ 21 * unitsPerOne ≤ unitsOf o)
    (h : RoundsTo ((rounded shownDigits (unitsOf o) unitsPerOne).value * unitsPerOne) p) :
    10 ^ 21 * unitsPerOne ≤ unitsOf p := by
  have hone := cast_unitsPerOne_pos
  obtain ⟨limit, hlimit⟩ : ∃ limit, unitsOf limit = 10 ^ 21 * unitsPerOne :=
    ⟨5 ^ 21 * 2 ^ 4 + 1091 * 2 ^ 52, by
      rw [unitsOf_row (by decide) (by decide), unitsPerOne_eq]; decide +kernel⟩
  have hunits : 0 < unitsOf o :=
    lt_of_lt_of_le (Nat.mul_pos (by decide) unitsPerOne_pos) ho
  have hstart : (⟨1, 21⟩ : Decimal).value = 10 ^ 21 := by simp [value]
  have hle : (10 : ℚ) ^ 21 ≤ (rounded shownDigits (unitsOf o) unitsPerOne).value := by
    rw [← hstart]
    refine le_rounded hunits unitsPerOne_pos (by decide) (by decide) ?_
    rw [hstart, le_div_iff₀ hone]
    exact_mod_cast ho
  rw [← hlimit, unitsOf_le_iff]
  refine (RoundsTo.self limit).mono h ?_
  rw [hlimit]
  push_cast
  exact mul_le_mul_of_nonneg_right hle hone.le

section Whole

variable {y : Decimal} (hp : 2 ^ 52 ≤ p) (hwhole : whole * unitsPerOne = unitsOf p)

include hp hwhole

theorem abs_value_sub_whole_le (h : RoundsTo (y.value * unitsPerOne) p) :
    2 ^ 53 * |y.value - whole| ≤ whole := by
  have hone := cast_unitsPerOne_pos
  have hunits : (unitsOf p : ℚ) = whole * unitsPerOne := by exact_mod_cast hwhole.symm
  have hclose := h.abs_sub_le hp
  rw [hunits, ← sub_mul, abs_mul, abs_of_pos hone, ← mul_assoc] at hclose
  exact le_of_mul_le_mul_right hclose hone

/-- A decimal of moderate size that is read as a whole number is that number. -/
theorem value_eq_whole (hdigits : y.digits ≤ 10 ^ shownDigits) (hle : y.value ≤ 5000000000000000)
    (h : RoundsTo (y.value * unitsPerOne) p) : y.value = whole := by
  have hclose := abs_value_sub_whole_le hp hwhole h
  have hdist := neg_abs_le (y.value - whole)
  rcases le_or_gt 0 y.exponent with hexponent | hexponent
  · -- Two whole numbers that differ by less than one are the same.
    obtain ⟨z, hz⟩ := exists_grid y hexponent
    rw [zpow_zero, mul_one] at hz
    have hnear : |y.value - whole| < 1 := by linarith
    rw [hz] at hnear ⊢
    have hnear : |(z : ℤ) - whole| < 1 := by exact_mod_cast hnear
    have hsame := Int.abs_lt_one_iff.mp hnear
    exact_mod_cast sub_eq_zero.mp hsame
  · -- The whole number has no more digits than are shown.
    have hdigits' : (y.digits : ℚ) ≤ 1000000000000 := by
      rw [← cast_shown]
      exact_mod_cast hdigits
    have hvalue : y.value ≤ 1000000000000 * 10 ^ (-1 : ℤ) :=
      mul_le_mul hdigits' (zpow_mono_ten (by omega)) (zpow_pos_ten _).le (by norm_num)
    rw [zpow_neg_one] at hvalue
    have hfew : (whole : ℚ) ≤ ((10 ^ shownDigits : ℕ) : ℚ) := by
      rw [cast_shown]
      linarith
    have hfew : whole ≤ 10 ^ shownDigits := by exact_mod_cast hfew
    have hplain : (⟨whole, 0⟩ : Decimal).value = whole := by rw [value, zpow_zero, mul_one]
    have hread : RoundsTo ((⟨whole, 0⟩ : Decimal).value * unitsPerOne) p := by
      convert RoundsTo.self p using 1
      rw [hplain, ← hwhole, Nat.cast_mul]
    rw [value_eq_rounded hp hdigits h, ← value_eq_rounded hp hfew hread, hplain]

/-- Where the double of the rounded number is whole, so is the rounded number, if what is rounded is
small enough to have had a fraction. -/
theorem rounded_eq_whole (ho : 0 < o) (hsmall : unitsOf o < 2 ^ 52 * unitsPerOne)
    (h : RoundsTo ((rounded shownDigits (unitsOf o) unitsPerOne).value * unitsPerOne) p) :
    (rounded shownDigits (unitsOf o) unitsPerOne).value = whole := by
  refine value_eq_whole hp hwhole rounded_digits_le_shown ?_ h
  have hsmall : (unitsOf o : ℚ) < 2 ^ 52 * unitsPerOne := by exact_mod_cast hsmall
  rw [← div_lt_iff₀ cast_unitsPerOne_pos] at hsmall
  have hbound : (⟨5, 15⟩ : Decimal).value = 5000000000000000 := by norm_num [value]
  rw [← hbound]
  refine rounded_le (unitsOf_pos.mpr ho) unitsPerOne_pos (by decide) (by decide) (hsmall.le.trans ?_)
  rw [hbound]
  norm_num

end Whole

/-- Only a number with a fraction is shown as a whole number that it is not. -/
theorem units_lt_of_wholeText? {negative : Bool} {ho : o < ordinalCount} {hp : p < ordinalCount}
    {text : Text} (hnone : wholeText? (.finite negative o ho) = none)
    (h : RoundsTo ((rounded shownDigits (unitsOf o) unitsPerOne).value * unitsPerOne) p)
    (htext : wholeText? (.finite negative p hp) = some text) :
    unitsOf o < 2 ^ 52 * unitsPerOne := by
  by_contra hge
  have hdvd := Nat.mod_eq_zero_of_dvd (dvd_unitsOf (Nat.le_of_not_lt hge))
  obtain ⟨m, hm⟩ : ∃ m, (Double.finite negative o ho).toInt? = some m := by
    rw [Double.toInt?, if_pos hdvd]
    exact ⟨_, rfl⟩
  have hmlarge : 10 ^ 21 ≤ m.natAbs := by
    by_contra hlt
    rw [wholeText?_eq_some.mpr ⟨m, hm, Nat.lt_of_not_le hlt, rfl⟩] at hnone
    cases hnone
  obtain ⟨n, hn, hnsmall, -⟩ := wholeText?_eq_some.mp htext
  have hlimit : 10 ^ 21 * unitsPerOne ≤ n.natAbs * unitsPerOne := by
    rw [natAbs_mul_of_toInt? hn]
    refine wholeLimit_le_of_roundsTo ?_ h
    rw [← natAbs_mul_of_toInt? hm]
    exact Nat.mul_le_mul_right _ hmlarge
  have hnlarge : 10 ^ 21 ≤ n.natAbs := Nat.le_of_mul_le_mul_right hlimit unitsPerOne_pos
  exact absurd hnsmall (Nat.not_lt.mpr hnlarge)

/-! ### What is shown -/

/-- A normal double that is not shown in full is shown as the number that it is rounded to. -/
theorem shown_rounded {negative : Bool} {ho : o < ordinalCount}
    (hnone : wholeText? (.finite negative o ho) = none) (hnormal : 2 ^ 52 ≤ o) :
    ∃ body, shown (.finite negative o ho) = Double.signText negative ++ body ∧
      InFull body (rounded shownDigits (unitsOf o) unitsPerOne).value := by
  obtain ⟨p, hp, hrounded, hread⟩ := displayRounded_finite negative ho
  have hp52 : 2 ^ 52 ≤ p := normal_of_roundsTo hnormal hread
  rw [shown_of_rounded hnone, hrounded]
  cases htext : wholeText? (.finite negative p hp) with
  | none =>
    have hsame := value_eq_rounded hp52 rounded_digits_le_shown hread
    refine ⟨_, rfl, ?_⟩
    rw [hsame, ← value_shortest hp52 (hsame ▸ hread)]
    exact positional_inFull shortest_eq_zero
  | some text =>
    have hsmall := units_lt_of_wholeText? hnone hread htext
    obtain ⟨n, hn, -, rfl⟩ := wholeText?_eq_some.mp htext
    have hsign : decide (n < 0) = negative := by
      have hpsign : (Double.finite negative p hp).toRat < 0 ↔ negative = true :=
        toRat_lt_zero (by omega)
      rw [toInt?_eq_some_iff.mp hn, Int.cast_lt_zero] at hpsign
      cases negative <;> simpa using hpsign
    refine ⟨Text.ofNat n.natAbs, ?_, ?_⟩
    · rw [← hsign, ← ofInt_eq]
      rfl
    · rw [rounded_eq_whole hp52 (natAbs_mul_of_toInt? hn) (by omega) hsmall hread]
      exact .whole _

/-- The text of a finite result is its value: in full if it is a whole number below `10 ^ 21`, and
rounded to twelve significant digits if not, unless it is too small to be a normal double. -/
theorem shown_value (result : Double) (h : result.isFinite = true) :
    (∀ n : ℤ, result.toRat = n → n.natAbs < 10 ^ 21 → shown result = Text.ofInt n) ∧
      ((∀ n : ℤ, result.toRat = n → 10 ^ 21 ≤ n.natAbs) →
        (2 : ℚ) ^ (-1022 : ℤ) ≤ |result.toRat| →
        ∃ body x, shown result = Double.signText (decide (result.toRat < 0)) ++ body ∧
          InFull body x ∧ IsRounded 12 |result.toRat| x) := by
  cases result with
  | infinite => cases h
  | nan => cases h
  | finite negative o ho =>
    constructor
    · intro n hn hlt
      exact shown_of_whole (wholeText?_eq_some.mpr ⟨n, toInt?_eq_some_iff.mpr hn, hlt, rfl⟩)
    · intro hlarge hnormal
      rw [abs_toRat] at hnormal ⊢
      have hnormal := smallestNormal_le_iff.mp hnormal
      have hpos : 0 < o := by omega
      have hnone : wholeText? (.finite negative o ho) = none := by
        refine Option.eq_none_iff_forall_ne_some.mpr fun text htext => ?_
        obtain ⟨n, hn, hlt, -⟩ := wholeText?_eq_some.mp htext
        exact absurd hlt (Nat.not_lt.mpr (hlarge n (toInt?_eq_some_iff.mp hn)))
      have hsign : decide ((Double.finite negative o ho).toRat < 0) = negative := by
        cases negative <;> simp [toRat_lt_zero hpos]
      obtain ⟨body, hshown, hfull⟩ := shown_rounded hnone hnormal
      rw [hsign]
      exact ⟨body, _, hshown, hfull,
        isRounded_rounded shownDigits (unitsOf_pos.mpr hpos) unitsPerOne_pos⟩

/-- The smallest normal double, with a minus, is shown with its digits far behind the point. -/
theorem shown_value_smallestNormal :
    (Double.finite true (2 ^ 52) (by decide)).isFinite = true ∧
      ∃ body x, shown (.finite true (2 ^ 52) (by decide)) =
        Double.signText (decide ((Double.finite true (2 ^ 52) (by decide)).toRat < 0)) ++ body ∧
          InFull body x ∧ IsRounded 12 |(Double.finite true (2 ^ 52) (by decide)).toRat| x := by
  refine ⟨rfl, (shown_value (.finite true (2 ^ 52) (by decide)) rfl).2 ?_ ?_⟩
  · intro n hn
    have hnone : (Double.finite true (2 ^ 52) (by decide)).toInt? = none := by decide +kernel
    rw [toInt?_eq_some_iff.mpr hn] at hnone
    cases hnone
  · rw [abs_toRat]
    exact smallestNormal_le_iff.mpr le_rfl

end Rounded

end Reckoner
