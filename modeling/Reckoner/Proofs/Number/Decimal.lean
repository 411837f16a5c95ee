import Reckoner.Number.Decimal
import Reckoner.Proofs.Number.Rounding

/-! The numbers that decimals stand for.  A decimal is read as the double that its number rounds to,
whatever digits it is written with, and of all decimals with so many significant digits the rounded
one is nearest to what it is rounded from. -/

namespace Reckoner

/-! ### Counting digits -/

section Digits

variable {n d : ℕ}

theorem digitCount_pos (n : ℕ) : 0 < digitCount n := Nat.length_toDigits_pos

theorem lt_pow_digitCount (n : ℕ) : n < 10 ^ digitCount n :=
  (Nat.length_toDigits_le_iff (by decide) (digitCount_pos n)).mp le_rfl

theorem pow_digitCount_le (hn : 0 < n) : 10 ^ (digitCount n - 1) ≤ n := by
  by_contra hlt
  rcases Nat.eq_zero_or_pos (digitCount n - 1) with h | h
  · rw [h] at hlt
    omega
  · have := (Nat.length_toDigits_le_iff (b := 10) (by decide) h).mpr (Nat.lt_of_not_le hlt)
    have : digitCount n ≤ digitCount n - 1 := this
    omega

end Digits

namespace Decimal

/-- The number that a decimal stands for. -/
def value (decimal : Decimal) : ℚ := decimal.digits * (10 : ℚ) ^ decimal.exponent

theorem zpow_pos_ten (k : ℤ) : (0 : ℚ) < 10 ^ k := zpow_pos (by norm_num) k

theorem value_nonneg (decimal : Decimal) : 0 ≤ decimal.value :=
  mul_nonneg (Nat.cast_nonneg _) (zpow_pos_ten _).le

theorem zpow_mono_ten {j k : ℤ} (h : j ≤ k) : (10 : ℚ) ^ j ≤ 10 ^ k :=
  zpow_le_zpow_right₀ (by norm_num) h

/-- The place of the first digit bounds the number. -/
theorem le_value {decimal : Decimal} (h : 0 < decimal.digits) :
    (10 : ℚ) ^ (digitCount decimal.digits + decimal.exponent - 1) ≤ decimal.value := by
  have hdigits : ((10 ^ (digitCount decimal.digits - 1) : ℕ) : ℚ) ≤ decimal.digits := by
    exact_mod_cast pow_digitCount_le h
  have hsplit : (10 : ℚ) ^ (digitCount decimal.digits + decimal.exponent - 1 : ℤ) =
      ((10 ^ (digitCount decimal.digits - 1) : ℕ) : ℚ) * 10 ^ decimal.exponent := by
    have hpos := digitCount_pos decimal.digits
    rw [Nat.cast_pow, Nat.cast_ofNat, ← zpow_natCast, ← zpow_add₀ (by norm_num)]
    congr 1
    omega
  rw [hsplit, value]
  exact mul_le_mul_of_nonneg_right hdigits (zpow_pos_ten _).le

theorem value_lt (decimal : Decimal) :
    decimal.value < (10 : ℚ) ^ (digitCount decimal.digits + decimal.exponent) := by
  have hdigits : (decimal.digits : ℚ) < 10 ^ digitCount decimal.digits := by
    exact_mod_cast lt_pow_digitCount decimal.digits
  rw [value, zpow_add₀ (by norm_num), zpow_natCast]
  exact mul_lt_mul_of_pos_right hdigits (zpow_pos_ten _)

/-! ### Reading -/

theorem cast_pow_lt {a b m n : ℕ} (h : a ^ m < b ^ n) : (a : ℚ) ^ m < (b : ℚ) ^ n := by
  exact_mod_cast h

/-- What rounds to a finite double is below `10 ^ 310`. -/
theorem lt_of_roundsTo {x : ℚ} {o : ℕ} (h : RoundsTo (x * unitsPerOne) o) (ho : o < ordinalCount) :
    x < 10 ^ (310 : ℤ) := by
  have hpos : (0 : ℚ) < unitsPerOne := cast_unitsPerOne_pos
  have hlast : (unitsOf o : ℚ) ≤ unitsOf ordinalCount := by
    exact_mod_cast unitsOf_le_iff.mpr ho.le
  have hnext : (unitsOf (o + 1) : ℚ) ≤ unitsOf ordinalCount := by
    exact_mod_cast unitsOf_le_iff.mpr ho
  have hx : x * unitsPerOne ≤ 2 ^ 1024 * unitsPerOne := by
    rw [← unitsOf_ordinalCount]
    linarith [h.high]
  have hpow := cast_pow_lt (show 2 ^ 1024 < 10 ^ 310 by decide +kernel)
  exact lt_of_le_of_lt (le_of_mul_le_mul_right hx hpos) hpow

/-- A number below `10 ^ -326` rounds to zero. -/
theorem eq_zero_of_roundsTo {x : ℚ} {o : ℕ} (h : RoundsTo (x * unitsPerOne) o)
    (hx : x < 10 ^ (-327 : ℤ)) : o = 0 := by
  have hpos : (0 : ℚ) < unitsPerOne := cast_unitsPerOne_pos
  refine h.eq_zero ?_
  have hx : x * 10 ^ 327 < 1 := by
    rw [zpow_neg, ← one_div, lt_div_iff₀ (zpow_pos_ten _), zpow_ofNat] at hx
    exact hx
  have htwo : 2 * (unitsPerOne : ℚ) = 2 ^ 1075 := by rw [cast_unitsPerOne, ← pow_succ']
  rcases le_or_gt x 0 with hneg | hx0
  · have hle : x * unitsPerOne ≤ 0 := mul_nonpos_of_nonpos_of_nonneg hneg hpos.le
    exact lt_of_le_of_lt (mul_nonpos_of_nonneg_of_nonpos zero_le_two hle) one_pos
  · have hpow := cast_pow_lt (show 2 ^ 1075 < 10 ^ 327 by decide +kernel)
    calc 2 * (x * unitsPerOne) = x * 2 ^ 1075 := by rw [← htwo]; ring
    _ < x * 10 ^ 327 := mul_lt_mul_of_pos_left hpow hx0
    _ < 1 := hx

/-- A decimal is read as the double that its number rounds to, or as an infinite one. -/
theorem toDouble_eq_of_roundsTo {decimal : Decimal} {negative : Bool} {o : ℕ}
    (h : RoundsTo (decimal.value * unitsPerOne) o) : decimal.toDouble negative =
      if ho : o < ordinalCount then .finite negative o ho else .infinite negative := by
  rw [toDouble]
  split
  case isTrue hzero =>
    have : decimal.value * unitsPerOne = 0 := by
      rw [value, hzero, Nat.cast_zero, zero_mul, zero_mul]
    obtain rfl := h.eq_zero (by rw [this]; norm_num)
    rfl
  case isFalse hzero =>
    split
    case isTrue hlarge =>
      have hge : ¬o < ordinalCount := fun ho => by
        have hle := le_value (Nat.pos_of_ne_zero hzero)
        have hlt := lt_of_roundsTo h ho
        have := zpow_mono_ten (show (310 : ℤ) ≤ digitCount decimal.digits + decimal.exponent - 1 by
          omega)
        linarith
      rw [dif_neg hge]
    case isFalse =>
      split
      case isTrue hsmall =>
        have hlt := value_lt decimal
        have := zpow_mono_ten
          (show (digitCount decimal.digits + decimal.exponent : ℤ) ≤ -327 by omega)
        obtain rfl := eq_zero_of_roundsTo h (lt_of_lt_of_le hlt this)
        rfl
      case isFalse =>
        obtain ⟨digits, exponent⟩ := decimal
        cases exponent with
        | ofNat k =>
          refine Double.nearest_of_roundsTo Nat.one_pos ?_
          convert h using 1
          simp only [value, Nat.pow_eq, Nat.cast_mul, Nat.cast_pow, Nat.cast_ofNat, Nat.cast_one,
            div_one, Int.ofNat_eq_natCast, zpow_natCast]
        | negSucc k =>
          refine Double.nearest_of_roundsTo (by simp [Nat.pow_eq]) ?_
          convert h using 1
          simp only [value, Nat.pow_eq, Nat.cast_mul, Nat.cast_pow, Nat.cast_ofNat, zpow_negSucc]
          ring

theorem toDouble_of_roundsTo {decimal : Decimal} {negative : Bool} {o : ℕ}
    (h : RoundsTo (decimal.value * unitsPerOne) o) (ho : o < ordinalCount) :
    decimal.toDouble negative = .finite negative o ho :=
  (toDouble_eq_of_roundsTo h).trans (dif_pos ho)

/-- `value` is the double nearest to the number `x`, which is not negative.  A tie goes to the even
double, and what would round to a double beyond the largest one is infinite. -/
inductive IsNearest (x : ℚ) : (value : Double) → Prop
  | finite {o : ℕ} (h : RoundsTo (x * unitsPerOne) o) (ho : o < ordinalCount) :
      IsNearest x (.finite false o ho)
  | infinite {o : ℕ} (h : RoundsTo (x * unitsPerOne) o) (ho : ordinalCount ≤ o) :
      IsNearest x (.infinite false)

theorem toDouble_isNearest (decimal : Decimal) :
    IsNearest decimal.value (decimal.toDouble false) := by
  obtain ⟨o, ho⟩ := RoundsTo.exists_of_nonneg
    (mul_nonneg decimal.value_nonneg (Nat.cast_nonneg unitsPerOne))
  rw [toDouble_eq_of_roundsTo ho]
  split
  case isTrue hlt => exact .finite ho hlt
  case isFalse hge => exact .infinite ho (Nat.le_of_not_lt hge)

/-! ### Zeros at the end -/

theorem value_withoutZeros (decimal : Decimal) : decimal.withoutZeros.value = decimal.value := by
  fun_induction withoutZeros decimal with
  | case1 decimal h => simp [value, h]
  | case2 decimal h hmod ih =>
    have hdigits : (decimal.digits : ℚ) = ((decimal.digits / 10 : ℕ) : ℚ) * 10 := by
      exact_mod_cast (Nat.div_mul_cancel (Nat.dvd_of_mod_eq_zero hmod)).symm
    rw [ih, value, value, hdigits, zpow_add_one₀ (by norm_num)]
    ring
  | case3 => rfl

/-- The last digit is not a zero any more, if the number is not zero. -/
theorem withoutZeros_eq_zero {decimal : Decimal} (h : decimal.withoutZeros.digits % 10 = 0) :
    decimal.withoutZeros = ⟨0, 0⟩ := by
  fun_induction withoutZeros decimal with
  | case1 => rfl
  | case2 decimal hne hmod ih => exact ih h
  | case3 decimal hne hmod => exact absurd h hmod

/-! ### Rounding -/

section Rounding

variable {n d : ℕ}

theorem scaled_snd_pos (hd : 0 < d) (place : ℤ) : 0 < (scaled n d place).2 :=
  Nat.mul_pos hd (Nat.pow_pos (by decide))

/-- A quotient is scaled by a power of ten. -/
theorem scaled_div (n d : ℕ) (place : ℤ) :
    ((scaled n d place).1 : ℚ) / (scaled n d place).2 = (n : ℚ) / d / 10 ^ place := by
  have hsplit : (10 : ℚ) ^ place = 10 ^ place.toNat / 10 ^ (-place).toNat := by
    rw [← zpow_natCast, ← zpow_natCast, ← zpow_sub₀ (by norm_num)]
    congr 1
    omega
  simp only [scaled, Nat.pow_eq, Nat.cast_mul, Nat.cast_pow, Nat.cast_ofNat]
  rw [hsplit, div_div_eq_mul_div, mul_comm (n / d : ℚ), ← mul_div_assoc, div_div, mul_comm (n : ℚ)]

/-- The first place of a quotient. -/
theorem leadingPlace_spec (hn : 0 < n) (hd : 0 < d) :
    (10 : ℚ) ^ leadingPlace n d ≤ (n : ℚ) / d ∧ (n : ℚ) / d < 10 ^ (leadingPlace n d + 1) := by
  have hdpos : (0 : ℚ) < d := Nat.cast_pos.mpr hd
  obtain ⟨k, hk⟩ : ∃ k : ℤ, k = digitCount n - digitCount d := ⟨_, rfl⟩
  have hcount (m : ℕ) (hm : 0 < m) : (10 : ℚ) ^ (digitCount m - 1 : ℤ) ≤ m ∧
      (m : ℚ) < 10 ^ (digitCount m : ℤ) := by
    have hpos := digitCount_pos m
    rw [show (digitCount m - 1 : ℤ) = ((digitCount m - 1 : ℕ) : ℤ) by omega, zpow_natCast,
      zpow_natCast]
    exact ⟨by exact_mod_cast pow_digitCount_le hm, by exact_mod_cast lt_pow_digitCount m⟩
  obtain ⟨hnlow, hnhigh⟩ := hcount n hn
  obtain ⟨hdlow, hdhigh⟩ := hcount d hd
  have hlow : (10 : ℚ) ^ (k - 1) ≤ (n : ℚ) / d := by
    rw [le_div_iff₀ hdpos]
    calc (10 : ℚ) ^ (k - 1) * d ≤ 10 ^ (k - 1) * 10 ^ (digitCount d : ℤ) :=
          mul_le_mul_of_nonneg_left hdhigh.le (zpow_pos_ten _).le
      _ = 10 ^ (digitCount n - 1 : ℤ) := by rw [← zpow_add₀ (by norm_num), hk]; congr 1; ring
      _ ≤ n := hnlow
  have hhigh : (n : ℚ) / d < 10 ^ (k + 1) := by
    rw [div_lt_iff₀ hdpos]
    calc (n : ℚ) < 10 ^ (digitCount n : ℤ) := hnhigh
      _ = 10 ^ (k + 1) * 10 ^ (digitCount d - 1 : ℤ) := by
          rw [← zpow_add₀ (by norm_num), hk]; congr 1; ring
      _ ≤ 10 ^ (k + 1) * d := mul_le_mul_of_nonneg_left hdlow (zpow_pos_ten _).le
  have htest : d * Nat.pow 10 k.toNat ≤ n * Nat.pow 10 (-k).toNat ↔ (10 : ℚ) ^ k ≤ (n : ℚ) / d := by
    have hscaled := scaled_div n d k
    have hsnd := Nat.cast_pos (α := ℚ).mpr (scaled_snd_pos (n := n) hd k)
    rw [← one_le_div (zpow_pos_ten k), ← hscaled, one_le_div hsnd, Nat.cast_le]
    exact Iff.rfl
  rw [leadingPlace, ← hk]
  split
  case isTrue h => exact ⟨htest.mp h, hhigh⟩
  case isFalse h =>
    rw [htest, not_le] at h
    rw [sub_add_cancel]
    exact ⟨hlow, h⟩

/-- A decimal lies on the grid of each place that is not above its own. -/
theorem exists_grid (decimal : Decimal) {place : ℤ} (h : place ≤ decimal.exponent) :
    ∃ z : ℕ, decimal.value = z * 10 ^ place := by
  obtain ⟨j, hj⟩ := Int.le.dest h
  refine ⟨decimal.digits * 10 ^ j, ?_⟩
  rw [value, ← hj, zpow_add₀ (by norm_num), zpow_natCast]
  push_cast
  ring

/-- The last place of a decimal with `count` digits that is rounded from `n / d`. -/
def lastPlace (count n d : ℕ) : ℤ := leadingPlace n d - (count - 1)

theorem rounded_spec (count : ℕ) (hn : 0 < n) (hd : 0 < d) :
    ∃ r, rounded count n d = ⟨r, lastPlace count n d⟩ ∧
      NearestNat ((n : ℚ) / d / 10 ^ lastPlace count n d) r := by
  refine ⟨_, by rw [rounded, if_neg hn.ne']; rfl, ?_⟩
  rw [← scaled_div]
  exact roundDiv_nearest (scaled_snd_pos hd _)

variable {count : ℕ}

theorem lastPlace_add (hcount : 1 ≤ count) : (10 : ℚ) ^ leadingPlace n d =
    ((10 ^ (count - 1) : ℕ) : ℚ) * 10 ^ lastPlace count n d := by
  rw [Nat.cast_pow, Nat.cast_ofNat, ← zpow_natCast, ← zpow_add₀ (by norm_num), lastPlace]
  congr 1
  omega

theorem rounded_digits_le (hn : 0 < n) (hd : 0 < d) (hcount : 1 ≤ count) :
    (rounded count n d).digits ≤ 10 ^ count := by
  obtain ⟨r, hr, hnear⟩ := rounded_spec count hn hd
  have hhigh : (n : ℚ) / d / 10 ^ lastPlace count n d < 10 ^ count := by
    rw [div_lt_iff₀ (zpow_pos_ten _)]
    refine lt_of_lt_of_eq (leadingPlace_spec hn hd).2 ?_
    rw [zpow_add_one₀ (by norm_num), lastPlace_add hcount]
    obtain ⟨c, rfl⟩ : ∃ c, count = c + 1 := ⟨count - 1, by omega⟩
    rw [Nat.add_sub_cancel, pow_succ]
    push_cast
    ring
  rw [hr]
  have : ((2 * r : ℕ) : ℚ) < ((2 * 10 ^ count + 1 : ℕ) : ℚ) := by
    push_cast
    linarith [hnear.low]
  have : 2 * r < 2 * 10 ^ count + 1 := by exact_mod_cast this
  show r ≤ 10 ^ count
  omega

/-- Half a unit of the last place is the most that rounding changes. -/
theorem abs_rounded_sub_le (count : ℕ) (hn : 0 < n) (hd : 0 < d) :
    2 * |(rounded count n d).value - (n : ℚ) / d| ≤ 10 ^ lastPlace count n d := by
  obtain ⟨r, hr, hnear⟩ := rounded_spec count hn hd
  have hs := zpow_pos_ten (lastPlace count n d)
  have hhalf : |(r : ℚ) - (n : ℚ) / d / 10 ^ lastPlace count n d| ≤ 1 / 2 :=
    abs_le.mpr ⟨by linarith [hnear.high], by linarith [hnear.low]⟩
  have hsub : (rounded count n d).value - (n : ℚ) / d =
      (r - (n : ℚ) / d / 10 ^ lastPlace count n d) * 10 ^ lastPlace count n d := by
    rw [hr, value, sub_mul, div_mul_cancel₀ _ hs.ne']
  rw [hsub, abs_mul, abs_of_pos hs]
  nlinarith

/-- No decimal with as many digits is nearer. -/
theorem abs_rounded_sub_le_abs (hn : 0 < n) (hd : 0 < d) (hcount : 1 ≤ count) {decimal : Decimal}
    (hdigits : decimal.digits ≤ 10 ^ count) :
    |(rounded count n d).value - (n : ℚ) / d| ≤ |decimal.value - (n : ℚ) / d| := by
  obtain ⟨r, hr, hnear⟩ := rounded_spec count hn hd
  have hs := zpow_pos_ten (lastPlace count n d)
  have hgrid (z : ℕ) : |(rounded count n d).value - (n : ℚ) / d| ≤
      |(z : ℚ) * 10 ^ lastPlace count n d - (n : ℚ) / d| := by
    have hx : (n : ℚ) / d = (n : ℚ) / d / 10 ^ lastPlace count n d * 10 ^ lastPlace count n d := by
      rw [div_mul_cancel₀ _ hs.ne']
    rw [hr, value]
    dsimp only
    rw [hx, ← sub_mul, ← sub_mul, abs_mul, abs_mul, abs_of_pos hs]
    exact mul_le_mul_of_nonneg_right (hnear.abs_sub_le z) hs.le
  rcases le_or_gt (lastPlace count n d) decimal.exponent with hle | hlt
  · obtain ⟨z, hz⟩ := exists_grid decimal hle
    rw [hz]
    exact hgrid z
  · -- A decimal that ends below the grid is no larger than the first point of its decade.
    have hfirst := (leadingPlace_spec hn hd).1
    have hvalue : decimal.value ≤ 10 ^ leadingPlace n d := by
      have hd' : (decimal.digits : ℚ) ≤ 10 ^ count := by exact_mod_cast hdigits
      calc decimal.value ≤ 10 ^ count * 10 ^ (lastPlace count n d - 1) :=
            mul_le_mul hd' (zpow_mono_ten (by omega)) (zpow_pos_ten _).le (by positivity)
        _ = 10 ^ leadingPlace n d := by
            rw [← zpow_natCast, ← zpow_add₀ (by norm_num), lastPlace]
            congr 1
            ring
    have hstart := hgrid (10 ^ (count - 1))
    rw [← lastPlace_add hcount] at hstart
    refine hstart.trans ?_
    rw [abs_of_nonpos (by linarith), abs_of_nonpos (by linarith)]
    linarith

section Bounds

variable (hn : 0 < n) (hd : 0 < d) (hcount : 1 ≤ count) {decimal : Decimal}
  (hdigits : decimal.digits ≤ 10 ^ count)

include hn hd hcount hdigits

/-- Rounding does not go beyond a decimal with as many digits. -/
theorem rounded_le (h : (n : ℚ) / d ≤ decimal.value) :
    (rounded count n d).value ≤ decimal.value := by
  have hclose := abs_rounded_sub_le_abs hn hd hcount hdigits
  rw [abs_of_nonneg (sub_nonneg.mpr h)] at hclose
  linarith [le_abs_self ((rounded count n d).value - (n : ℚ) / d)]

theorem le_rounded (h : decimal.value ≤ (n : ℚ) / d) :
    decimal.value ≤ (rounded count n d).value := by
  have hclose := abs_rounded_sub_le_abs hn hd hcount hdigits
  rw [abs_of_nonpos (sub_nonpos.mpr h)] at hclose
  linarith [neg_abs_le ((rounded count n d).value - (n : ℚ) / d)]

end Bounds

end Rounding

end Decimal

end Reckoner
