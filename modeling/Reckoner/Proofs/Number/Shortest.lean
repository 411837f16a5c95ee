import Reckoner.Number.Shortest
import Reckoner.Proofs.Number.Decimal

/-! The shortest decimal of a double is read as that double.  Each grid point that is tried is held
against the two midpoints, and seventeen digits are closer to the double than either of them. -/

namespace Reckoner

/-- What is close enough to a double rounds to it. -/
theorem RoundsTo.of_abs_lt {x : ℚ} {o below : ℕ} (hbelow : unitsOf (o + 1) = unitsOf o + below)
    (h : 2 * |x - unitsOf (o + 1)| < below) : RoundsTo x (o + 1) := by
  obtain ⟨below', above, hbelow', habove, hle, -, -⟩ := unitsOf_gaps o
  obtain rfl : below = below' := by omega
  have hbelow : (unitsOf (o + 1) : ℚ) = unitsOf o + below := by exact_mod_cast hbelow
  have habove : (unitsOf (o + 1 + 1) : ℚ) = unitsOf (o + 1) + above := by exact_mod_cast habove
  have hle : (below : ℚ) ≤ above := by exact_mod_cast hle
  obtain ⟨h1, h2⟩ := abs_lt.mp (show |x - unitsOf (o + 1)| < below / 2 by linarith)
  refine ⟨by rw [Nat.add_sub_cancel]; linarith, by linarith, ?_⟩
  rw [Nat.add_sub_cancel]
  rintro (hmid | hmid) <;> linarith

/-- A grid point is held against the midpoints in half units. -/
theorem roundsTo_of_readsBack {o m q : ℕ} (hq : 0 < q) (h : readsBack o m q = true) :
    RoundsTo ((m : ℚ) / (2 * q)) o := by
  have hq : (0 : ℚ) < q := Nat.cast_pos.mpr hq
  have htwice : 2 * ((m : ℚ) / (2 * q)) = m / q := by field_simp
  rw [readsBack] at h
  split at h
  case isTrue heven =>
    simp only [Bool.and_eq_true, decide_eq_true_eq] at h
    have hlow : ((unitsOf (o - 1) : ℚ) + unitsOf o) * q ≤ m := by exact_mod_cast h.1
    have hhigh : (m : ℚ) ≤ (unitsOf o + unitsOf (o + 1)) * q := by exact_mod_cast h.2
    refine ⟨?_, ?_, fun _ => heven⟩
    · rwa [htwice, le_div_iff₀ hq]
    · rwa [htwice, div_le_iff₀ hq]
  case isFalse hodd =>
    simp only [Bool.and_eq_true, decide_eq_true_eq] at h
    have hlow : ((unitsOf (o - 1) : ℚ) + unitsOf o) * q < m := by exact_mod_cast h.1
    have hhigh : (m : ℚ) < (unitsOf o + unitsOf (o + 1)) * q := by exact_mod_cast h.2
    rw [← lt_div_iff₀ hq, ← htwice] at hlow
    rw [← div_lt_iff₀ hq, ← htwice] at hhigh
    refine ⟨hlow.le, hhigh.le, ?_⟩
    rintro (hmid | hmid) <;> linarith

theorem readsBack_of_gridPoint? {o p q digits : ℕ} (h : gridPoint? o p q = some digits) :
    readsBack o (digits * q) p = true := by
  have hfirst (a b : ℕ) : (if readsBack o (a * q) p then some a
      else if readsBack o (b * q) p then some b else none) = some digits →
        readsBack o (digits * q) p = true := by
    intro h
    split at h
    case isTrue hread => exact Option.some.inj h ▸ hread
    case isFalse =>
      split at h
      case isTrue hread => exact Option.some.inj h ▸ hread
      case isFalse => cases h
  exact hfirst _ _ h

/-- One step on the grid of a place, which is counted in half units. -/
theorem scaled_halfUnits (place : ℤ) : 0 < (Decimal.scaled 1 (2 * unitsPerOne) place).1 ∧
    ((Decimal.scaled 1 (2 * unitsPerOne) place).2 : ℚ) /
      (2 * (Decimal.scaled 1 (2 * unitsPerOne) place).1) = 10 ^ place * unitsPerOne := by
  have hone : (0 : ℚ) < unitsPerOne := cast_unitsPerOne_pos
  have hs := Decimal.zpow_pos_ten place
  have hp : 0 < (Decimal.scaled 1 (2 * unitsPerOne) place).1 :=
    Nat.mul_pos Nat.one_pos (Nat.pow_pos (by decide))
  have hq : 0 < (Decimal.scaled 1 (2 * unitsPerOne) place).2 :=
    Decimal.scaled_snd_pos (Nat.mul_pos (by decide) unitsPerOne_pos) place
  refine ⟨hp, ?_⟩
  have hdiv := Decimal.scaled_div 1 (2 * unitsPerOne) place
  generalize Decimal.scaled 1 (2 * unitsPerOne) place = grid at hp hq hdiv
  have hp : (0 : ℚ) < grid.1 := Nat.cast_pos.mpr hp
  have hq : (0 : ℚ) < grid.2 := Nat.cast_pos.mpr hq
  push_cast at hdiv
  field_simp at hdiv ⊢
  linarith

/-- A point that is found on the grid of a place is read as the double. -/
theorem roundsTo_of_gridPoint? {o digits : ℕ} {place : ℤ}
    (h : gridPoint? o (Decimal.scaled 1 (2 * unitsPerOne) place).1
      (Decimal.scaled 1 (2 * unitsPerOne) place).2 = some digits) :
    RoundsTo ((⟨digits, place⟩ : Decimal).value * unitsPerOne) o := by
  obtain ⟨hp, hstep⟩ := scaled_halfUnits place
  convert roundsTo_of_readsBack hp (readsBack_of_gridPoint? h) using 1
  rw [Nat.cast_mul, mul_div_assoc, hstep, ← mul_assoc]
  rfl

/-- Seventeen digits are always enough. -/
theorem roundsTo_rounded_seventeen {o : ℕ} (h : 0 < o) :
    RoundsTo ((Decimal.rounded 17 (unitsOf o) unitsPerOne).value * unitsPerOne) o := by
  have hone : (0 : ℚ) < unitsPerOne := cast_unitsPerOne_pos
  have hunits := unitsOf_pos.mpr h
  obtain ⟨o, rfl⟩ : ∃ p, o = p + 1 := ⟨o - 1, by omega⟩
  obtain ⟨below, -, hbelow, -, -, hfine, -⟩ := unitsOf_gaps o
  refine RoundsTo.of_abs_lt hbelow ?_
  have hclose := Decimal.abs_rounded_sub_le 17 hunits unitsPerOne_pos
  have hfirst := (Decimal.leadingPlace_spec hunits unitsPerOne_pos).1
  rw [Decimal.lastPlace_add (show 1 ≤ 17 by decide), le_div_iff₀ hone] at hfirst
  have hfine : (unitsOf (o + 1) : ℚ) ≤ 2 ^ 53 * below := by exact_mod_cast hfine
  obtain ⟨s, hs⟩ : ∃ s : ℚ, s = 10 ^ Decimal.lastPlace 17 (unitsOf (o + 1)) unitsPerOne := ⟨_, rfl⟩
  rw [← hs] at hclose hfirst
  have hspos : 0 < s * unitsPerOne := mul_pos (hs ▸ Decimal.zpow_pos_ten _) hone
  -- A unit of the last digit is less than the distance to the lower neighbour.
  have hunit : s * unitsPerOne < below := by
    rw [show ((10 ^ (17 - 1) : ℕ) : ℚ) = 10000000000000000 by norm_num] at hfirst
    rw [show (2 : ℚ) ^ 53 = 9007199254740992 by norm_num] at hfine
    linarith
  refine lt_of_le_of_lt ?_ hunit
  calc 2 * |(Decimal.rounded 17 (unitsOf (o + 1)) unitsPerOne).value * unitsPerOne -
        unitsOf (o + 1)|
      = 2 * |(Decimal.rounded 17 (unitsOf (o + 1)) unitsPerOne).value -
          (unitsOf (o + 1) : ℚ) / unitsPerOne| * unitsPerOne := by
        rw [mul_assoc, ← abs_of_pos hone, ← abs_mul, abs_of_pos hone, sub_mul,
          div_mul_cancel₀ _ hone.ne']
    _ ≤ s * unitsPerOne := mul_le_mul_of_nonneg_right hclose hone.le

theorem roundsTo_shortestFrom {o count more : ℕ} (h : 0 < o) (hcount : count + more = 17) :
    RoundsTo ((shortestFrom o (Decimal.leadingPlace (unitsOf o) unitsPerOne) count more).value *
      unitsPerOne) o := by
  induction more generalizing count with
  | zero =>
    obtain rfl : count = 17 := hcount
    exact roundsTo_rounded_seventeen h
  | succ more ih =>
    rw [shortestFrom]
    dsimp only
    cases hgrid : gridPoint? o _ _ with
    | some digits => exact roundsTo_of_gridPoint? hgrid
    | none => exact ih (by omega)

theorem shortest_eq_zero {o : ℕ} (h : (shortest o).digits % 10 = 0) : shortest o = ⟨0, 0⟩ := by
  rw [shortest] at h ⊢
  split
  case isTrue => rfl
  case isFalse hne =>
    rw [if_neg hne] at h
    exact Decimal.withoutZeros_eq_zero h

theorem shortest_exponent_eq_zero {o : ℕ} (h : (shortest o).digits = 0) :
    (shortest o).exponent = 0 := by
  rw [shortest_eq_zero (by rw [h])]

/-- The shortest decimal of a double is read as that double. -/
theorem shortest_roundsTo (o : ℕ) : RoundsTo ((shortest o).value * unitsPerOne) o := by
  rw [shortest]
  split
  case isTrue h =>
    subst h
    convert RoundsTo.self 0 using 1
    rw [Decimal.value, unitsOf_zero, Nat.cast_zero, zero_mul, zero_mul]
  case isFalse h =>
    rw [Decimal.value_withoutZeros]
    exact roundsTo_shortestFrom (Nat.pos_of_ne_zero h) rfl

end Reckoner
