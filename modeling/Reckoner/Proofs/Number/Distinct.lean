import Reckoner.Proofs.Number.Shortest
import Reckoner.Proofs.Number.Significant

/-! Decimals that no double takes for one another.  From `2 ^ -1022` on, what is read as a double
differs from it by one part in `2 ^ 53` at most, and the decimals with the digits that are shown lie
much further apart.  So there is one of them at most that is read as a double, which is what the
double is rounded to, and the shortest digits of the double are those of this decimal. -/

namespace Reckoner

open Decimal

section Distinct

variable {x : ℚ} {p : ℕ}

/-- A number is close to the double that it is read as. -/
theorem RoundsTo.abs_sub_le (h : RoundsTo x p) (hp : 2 ^ 52 ≤ p) :
    2 ^ 53 * |x - unitsOf p| ≤ unitsOf p := by
  obtain ⟨o, rfl⟩ : ∃ o, p = o + 1 := ⟨p - 1, by omega⟩
  obtain ⟨below, above, hbelow, habove, hle, -, -⟩ := unitsOf_gaps o
  obtain ⟨r, k, hrow, -, hk, hunits, hnext⟩ := exists_row (o + 1)
  have hr : 2 ^ 52 ≤ r := by
    rcases Nat.eq_zero_or_pos k with rfl | hpos
    · omega
    · exact hk hpos.ne'
  have hstep : above = 2 ^ k := by
    rw [habove, hunits, Nat.succ_mul] at hnext
    exact Nat.add_left_cancel hnext
  have hfine : 2 ^ 52 * (above : ℚ) ≤ unitsOf (o + 1) := by
    rw [hstep, hunits]
    exact_mod_cast Nat.mul_le_mul_right _ hr
  have hlow := h.low
  have hhigh := h.high
  rw [Nat.add_sub_cancel] at hlow
  have hbelow : (unitsOf (o + 1) : ℚ) = unitsOf o + below := by exact_mod_cast hbelow
  have habove : (unitsOf (o + 1 + 1) : ℚ) = unitsOf (o + 1) + above := by exact_mod_cast habove
  have hle : (below : ℚ) ≤ above := by exact_mod_cast hle
  have hdist : |x - unitsOf (o + 1)| ≤ above / 2 := abs_le.mpr ⟨by linarith, by linarith⟩
  linarith

theorem NearestNat.eq_of_abs_lt {r z : ℕ} (h : NearestNat x r) (hz : 2 * |(z : ℚ) - x| < 1) :
    r = z := by
  obtain ⟨hz1, hz2⟩ := abs_lt.mp (show |(z : ℚ) - x| < 1 / 2 by linarith)
  have hlow : ((2 * r : ℕ) : ℚ) < ((2 * z + 2 : ℕ) : ℚ) := by
    push_cast
    linarith [h.low]
  have hhigh : ((2 * z : ℕ) : ℚ) < ((2 * r + 2 : ℕ) : ℚ) := by
    push_cast
    linarith [h.high]
  have hlow : 2 * r < 2 * z + 2 := by exact_mod_cast hlow
  have hhigh : 2 * z < 2 * r + 2 := by exact_mod_cast hhigh
  omega

section Normal

variable (hp : 2 ^ 52 ≤ p)

include hp

/-- A point of the grid with the digits that are shown is close to the double that it is read as,
as measured in steps of the grid. -/
theorem abs_grid_sub_lt {z : ℕ}
    (h : RoundsTo (z * 10 ^ lastPlace shownDigits (unitsOf p) unitsPerOne * unitsPerOne) p) :
    2 * |(z : ℚ) - (unitsOf p : ℚ) / unitsPerOne /
      10 ^ lastPlace shownDigits (unitsOf p) unitsPerOne| < 1 := by
  have hone : (0 : ℚ) < unitsPerOne := cast_unitsPerOne_pos
  have hunits : 0 < unitsOf p := unitsOf_pos.mpr (by omega)
  have hdecade := (leadingPlace_spec hunits unitsPerOne_pos).2
  rw [zpow_add_one₀ (by norm_num), lastPlace_add (show 1 ≤ shownDigits by decide),
    cast_shown_pred, div_lt_iff₀ hone] at hdecade
  have hclose := h.abs_sub_le hp
  obtain ⟨s, hs⟩ : ∃ s : ℚ, s = 10 ^ lastPlace shownDigits (unitsOf p) unitsPerOne := ⟨_, rfl⟩
  rw [← hs] at hdecade hclose ⊢
  have hspos : 0 < s := hs ▸ zpow_pos_ten _
  have hstep : 0 < s * unitsPerOne := mul_pos hspos hone
  have hscale : (z : ℚ) * s * unitsPerOne - unitsOf p =
      (z - (unitsOf p : ℚ) / unitsPerOne / s) * (s * unitsPerOne) := by
    rw [div_div, mul_comm (unitsPerOne : ℚ) s, sub_mul, div_mul_cancel₀ _ hstep.ne', mul_assoc]
  rw [hscale, abs_mul, abs_of_pos hstep] at hclose
  generalize |(z : ℚ) - (unitsOf p : ℚ) / unitsPerOne / s| = dist at hclose ⊢
  have hbound : 2 ^ 53 * dist * (s * unitsPerOne) < 1000000000000 * (s * unitsPerOne) := by
    linarith
  have hbound : 2 ^ 53 * dist < 1000000000000 := lt_of_mul_lt_mul_right hbound hstep.le
  linarith

/-- What is read as the double, and has no digit below those that are shown, is the number that the
double is rounded to. -/
theorem value_eq_rounded_of_place {decimal : Decimal}
    (hplace : lastPlace shownDigits (unitsOf p) unitsPerOne ≤ decimal.exponent)
    (h : RoundsTo (decimal.value * unitsPerOne) p) :
    decimal.value = (rounded shownDigits (unitsOf p) unitsPerOne).value := by
  obtain ⟨z, hz⟩ := exists_grid decimal hplace
  obtain ⟨r, hr, hnear⟩ := rounded_spec shownDigits (unitsOf_pos.mpr (by omega : 0 < p))
    unitsPerOne_pos
  rw [hz] at h
  rw [hz, hr, hnear.eq_of_abs_lt (abs_grid_sub_lt hp h)]
  rfl

/-- A decimal with as many digits as are shown, and with finer ones than the double is rounded to, is
the first number of the decade. -/
theorem value_of_exponent_lt {decimal : Decimal} (hdigits : decimal.digits ≤ 10 ^ shownDigits)
    (h : RoundsTo (decimal.value * unitsPerOne) p)
    (hlt : decimal.exponent < lastPlace shownDigits (unitsOf p) unitsPerOne) :
    decimal.value =
      (⟨10 ^ (shownDigits - 1), lastPlace shownDigits (unitsOf p) unitsPerOne⟩ : Decimal).value := by
  have hone : (0 : ℚ) < unitsPerOne := cast_unitsPerOne_pos
  have hfirst := (leadingPlace_spec (unitsOf_pos.mpr (by omega : 0 < p)) unitsPerOne_pos).1
  rw [lastPlace_add (show 1 ≤ shownDigits by decide), cast_shown_pred, le_div_iff₀ hone] at hfirst
  generalize lastPlace shownDigits (unitsOf p) unitsPerOne = place at hfirst hlt ⊢
  have hclose := h.abs_sub_le hp
  have hbelow := neg_abs_le (decimal.value * unitsPerOne - unitsOf p)
  have hs := zpow_pos_ten place
  have hstep : 0 < (10 : ℚ) ^ place * unitsPerOne := mul_pos hs hone
  -- With fewer digits, or still finer ones, the decimal is too far below the double.
  have hdigits' : (decimal.digits : ℚ) ≤ 1000000000000 := by
    rw [← cast_shown]
    exact_mod_cast hdigits
  have hexponent : decimal.exponent = place - 1 := by
    by_contra hne
    have hvalue : decimal.value ≤ 1000000000000 * 10 ^ (place - 2) :=
      mul_le_mul hdigits' (zpow_mono_ten (by omega)) (zpow_pos_ten _).le (by norm_num)
    have hpow : (10 : ℚ) ^ (place - 2) = 10 ^ place / 100 := by
      rw [zpow_sub₀ (by norm_num)]
      norm_num
    rw [hpow] at hvalue
    linarith [mul_le_mul_of_nonneg_right hvalue hone.le]
  have hvalue : decimal.value = decimal.digits * (10 ^ place / 10) := by
    rw [Decimal.value, hexponent, zpow_sub_one₀ (by norm_num)]
    rfl
  have hmany : ((10 ^ shownDigits : ℕ) : ℚ) < ((decimal.digits + 1 : ℕ) : ℚ) := by
    rw [cast_shown]
    push_cast
    rw [hvalue] at hbelow hclose
    refine lt_of_mul_lt_mul_right ?_ hstep.le
    linarith
  have hmany : 10 ^ shownDigits < decimal.digits + 1 := by exact_mod_cast hmany
  have hfull : decimal.digits = 10 ^ shownDigits := by omega
  rw [hvalue, hfull, Decimal.value, cast_shown, cast_shown_pred]
  ring

/-- A decimal with as many digits as are shown is found again from the double that it is read as. -/
theorem value_eq_rounded {decimal : Decimal} (hdigits : decimal.digits ≤ 10 ^ shownDigits)
    (h : RoundsTo (decimal.value * unitsPerOne) p) :
    decimal.value = (rounded shownDigits (unitsOf p) unitsPerOne).value := by
  rcases lt_or_ge decimal.exponent (lastPlace shownDigits (unitsOf p) unitsPerOne) with hlt | hge
  · have hvalue := value_of_exponent_lt hp hdigits h hlt
    rw [hvalue] at h ⊢
    exact value_eq_rounded_of_place hp le_rfl h
  · exact value_eq_rounded_of_place hp hge h

end Normal

/-! ### The shortest digits -/

theorem readsBack_of_roundsTo {o m q : ℕ} (hq : 0 < q) (h : RoundsTo ((m : ℚ) / (2 * q)) o) :
    readsBack o m q = true := by
  have hq : (0 : ℚ) < q := Nat.cast_pos.mpr hq
  have htwice : 2 * ((m : ℚ) / (2 * q)) = m / q := by field_simp
  obtain ⟨hlow, hhigh, heven⟩ := h
  rw [htwice] at hlow hhigh heven
  have hlow' := hlow
  have hhigh' := hhigh
  rw [le_div_iff₀ hq] at hlow'
  rw [div_le_iff₀ hq] at hhigh'
  rw [readsBack]
  split
  case isTrue =>
    simp only [Bool.and_eq_true, decide_eq_true_eq]
    exact ⟨by exact_mod_cast hlow', by exact_mod_cast hhigh'⟩
  case isFalse hodd =>
    have hlow : ((unitsOf (o - 1) : ℚ) + unitsOf o) * q < m :=
      (lt_div_iff₀ hq).mp (lt_of_le_of_ne hlow fun heq => hodd (heven (.inl heq.symm)))
    have hhigh : (m : ℚ) < (unitsOf o + unitsOf (o + 1)) * q :=
      (div_lt_iff₀ hq).mp (lt_of_le_of_ne hhigh fun heq => hodd (heven (.inr heq)))
    simp only [Bool.and_eq_true, decide_eq_true_eq]
    exact ⟨by exact_mod_cast hlow, by exact_mod_cast hhigh⟩

/-- A point that is next to the double and is read as it is found. -/
theorem gridPoint?_of_roundsTo {o z : ℕ} {place : ℤ}
    (hnear : 2 * |(z : ℚ) - (unitsOf o : ℚ) / unitsPerOne / 10 ^ place| < 1)
    (h : RoundsTo (z * 10 ^ place * unitsPerOne) o) :
    gridPoint? o (Decimal.scaled 1 (2 * unitsPerOne) place).1
      (Decimal.scaled 1 (2 * unitsPerOne) place).2 = some z := by
  have hone : (0 : ℚ) < unitsPerOne := cast_unitsPerOne_pos
  have hs := zpow_pos_ten place
  obtain ⟨hp, hstep⟩ := scaled_halfUnits place
  have hread : readsBack o (z * (Decimal.scaled 1 (2 * unitsPerOne) place).2)
      (Decimal.scaled 1 (2 * unitsPerOne) place).1 = true := by
    refine readsBack_of_roundsTo hp ?_
    rwa [Nat.cast_mul, mul_div_assoc, hstep, ← mul_assoc]
  generalize Decimal.scaled 1 (2 * unitsPerOne) place = grid at hp hstep hread
  have hp' : (0 : ℚ) < grid.1 := Nat.cast_pos.mpr hp
  have hq : 0 < grid.2 := by
    refine Nat.pos_of_ne_zero fun hzero => ?_
    rw [hzero, Nat.cast_zero, zero_div] at hstep
    exact absurd hstep (mul_pos hs hone).ne
  have hvalue : ((2 * unitsOf o * grid.1 : ℕ) : ℚ) / grid.2 =
      (unitsOf o : ℚ) / unitsPerOne / 10 ^ place := by
    have hq' : (grid.2 : ℚ) = 10 ^ place * unitsPerOne * (2 * grid.1) :=
      (div_eq_iff (mul_pos two_pos hp').ne').mp hstep
    rw [hq']
    push_cast
    field_simp
  have hnearest : roundDiv (2 * unitsOf o * grid.1) grid.2 = z :=
    (hvalue ▸ roundDiv_nearest hq).eq_of_abs_lt hnear
  rw [gridPoint?, hnearest, if_pos hread]

section Normal

variable (hp : 2 ^ 52 ≤ p)
  (h : RoundsTo ((rounded shownDigits (unitsOf p) unitsPerOne).value * unitsPerOne) p)

include hp h

theorem value_shortestFrom {count more : ℕ} (hcount : count + more = 17)
    (hshown : count ≤ shownDigits) :
    (shortestFrom p (leadingPlace (unitsOf p) unitsPerOne) count more).value =
      (rounded shownDigits (unitsOf p) unitsPerOne).value := by
  induction more generalizing count with
  | zero => exact absurd hshown (by rw [shownDigits]; omega)
  | succ more ih =>
    rw [shortestFrom]
    dsimp only
    cases hgrid : gridPoint? p _ _ with
    | some digits =>
      refine value_eq_rounded_of_place hp ?_ (roundsTo_of_gridPoint? hgrid)
      rw [lastPlace]
      dsimp only
      omega
    | none =>
      refine ih (by omega) (Nat.lt_of_le_of_ne hshown ?_)
      rintro rfl
      -- On the grid with the digits that are shown there is a point to be found.
      obtain ⟨r, hr, -⟩ := rounded_spec shownDigits (unitsOf_pos.mpr (by omega : 0 < p))
        unitsPerOne_pos
      rw [hr] at h
      have hfound := gridPoint?_of_roundsTo (abs_grid_sub_lt hp h) h
      rw [lastPlace] at hfound
      rw [hfound] at hgrid
      cases hgrid

/-- The shortest digits of a double are those of the decimal that it is rounded to, if this is read
as the double. -/
theorem value_shortest :
    (shortest p).value = (rounded shownDigits (unitsOf p) unitsPerOne).value := by
  rw [shortest, if_neg (by omega), value_withoutZeros]
  exact value_shortestFrom hp h rfl (by decide)

end Normal

end Distinct

end Reckoner
