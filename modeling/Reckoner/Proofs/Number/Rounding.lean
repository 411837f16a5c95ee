import Mathlib.Tactic.FieldSimp
import Mathlib.Tactic.Linarith
import Mathlib.Tactic.Positivity
import Mathlib.Tactic.Ring
import Reckoner.Number.Double

/-! Rounding to the nearest double.  The doubles from zero upward have increasing units, a number
rounds to the one that it is nearest to, and to the even ordinal where it lies midway between two.
`nearestOrdinal_eq_iff` says that the ordinal which is computed is the one of this relation.  What
rounds to a double does so together with all that is closer to it, as long as the neighbours of the
double are at the same distance. -/

namespace Reckoner

/-! ### Whole numbers -/

/-- `r` is the whole number nearest to `x`, the even one of two at the same distance. -/
structure NearestNat (x : ℚ) (r : ℕ) : Prop where
  low : 2 * (r : ℚ) ≤ 2 * x + 1
  high : 2 * x ≤ 2 * (r : ℚ) + 1
  even : 2 * (r : ℚ) = 2 * x + 1 ∨ 2 * x = 2 * (r : ℚ) + 1 → r % 2 = 0

theorem roundDiv_nearest {n d : ℕ} (hd : 0 < d) : NearestNat ((n : ℚ) / d) (roundDiv n d) := by
  have hdpos : (0 : ℚ) < d := Nat.cast_pos.mpr hd
  -- `t` is the fraction of the quotient.
  obtain ⟨t, ht⟩ : ∃ t : ℚ, t = ((n % d : ℕ) : ℚ) / d := ⟨_, rfl⟩
  have htd : t * d = ((n % d : ℕ) : ℚ) := by rw [ht]; field_simp
  have hx : (n : ℚ) / d = ((n / d : ℕ) : ℚ) + t := by
    have hn : (n : ℚ) = d * ((n / d : ℕ) : ℚ) + ((n % d : ℕ) : ℚ) := by
      exact_mod_cast (Nat.div_add_mod n d).symm
    rw [ht, hn]
    field_simp
  have ht0 : 0 ≤ t := by rw [ht]; positivity
  have ht1 : t < 1 := by
    have : ((n % d : ℕ) : ℚ) < d := by exact_mod_cast Nat.mod_lt n hd
    nlinarith
  have hsucc : ((n / d + 1 : ℕ) : ℚ) = ((n / d : ℕ) : ℚ) + 1 := Nat.cast_succ _
  rw [hx, roundDiv]
  split
  case isTrue hlt =>
    have hlt : 2 * t < 1 := by
      have : 2 * ((n % d : ℕ) : ℚ) < d := by exact_mod_cast hlt
      nlinarith
    refine ⟨by linarith, by linarith, ?_⟩
    rintro (h | h) <;> linarith
  case isFalse hge =>
    split
    case isTrue heq =>
      have heq : 2 * t = 1 := by
        have : 2 * ((n % d : ℕ) : ℚ) = d := by exact_mod_cast heq
        have : (2 * t - 1) * d = 0 := by linarith
        rcases mul_eq_zero.mp this with h | h <;> linarith
      rcases Nat.mod_two_eq_zero_or_one (n / d) with h | h
      · rw [h, Nat.add_zero]
        exact ⟨by linarith, by linarith, fun _ => h⟩
      · rw [h]
        exact ⟨by linarith, by linarith, fun _ => by omega⟩
    case isFalse hne =>
      have hgt : 1 < 2 * t := by
        have : (d : ℚ) < 2 * ((n % d : ℕ) : ℚ) := by
          exact_mod_cast lt_of_le_of_ne (Nat.le_of_not_lt hge) (Ne.symm hne)
        nlinarith
      refine ⟨by linarith, by linarith, ?_⟩
      rintro (h | h) <;> linarith

/-- No integer is nearer. -/
theorem NearestNat.abs_sub_le {x : ℚ} {r : ℕ} (h : NearestNat x r) (z : ℤ) :
    |(r : ℚ) - x| ≤ |(z : ℚ) - x| := by
  have hhalf : |(r : ℚ) - x| ≤ 1 / 2 := abs_le.mpr ⟨by linarith [h.high], by linarith [h.low]⟩
  rcases lt_trichotomy z r with hz | rfl | hz
  · have hz : (z : ℚ) + 1 ≤ r := by exact_mod_cast hz
    refine le_abs.mpr (.inr ?_)
    rcases abs_cases ((r : ℚ) - x) with h | h <;> linarith
  · simp
  · have hz : (r : ℚ) + 1 ≤ z := by exact_mod_cast hz
    refine le_abs.mpr (.inl ?_)
    rcases abs_cases ((r : ℚ) - x) with h | h <;> linarith

/-! ### The units of the doubles -/

/-- The ordinals go in rows of `2 ^ 52`: in row `k` the units have at most 53 bits with `k` zeros
after them.  The last of these is the first of the next row. -/
theorem unitsOf_row {r k : ℕ} (hlow : k ≠ 0 → 2 ^ 52 ≤ r) (hhigh : r ≤ 2 ^ 53) :
    unitsOf (r + k * 2 ^ 52) = r * 2 ^ k := by
  rw [unitsOf]
  simp only [Nat.pow_eq]
  split
  case isTrue hlt =>
    obtain rfl : k = 0 := by omega
    omega
  case isFalse hge =>
    rcases Nat.lt_or_eq_of_le hhigh with h | rfl
    · have hdiv : (r + k * 2 ^ 52) / 2 ^ 52 = k + 1 := by omega
      have hmod : 2 ^ 52 + (r + k * 2 ^ 52) % 2 ^ 52 = r := by omega
      rw [hdiv, hmod, Nat.add_sub_cancel]
    · have hdiv : (2 ^ 53 + k * 2 ^ 52) / 2 ^ 52 = k + 2 := by omega
      have hmod : 2 ^ 52 + (2 ^ 53 + k * 2 ^ 52) % 2 ^ 52 = 2 ^ 52 := by omega
      rw [hdiv, hmod, show k + 2 - 1 = k + 1 from rfl, pow_succ]
      ring

theorem unitsOf_of_le {o : ℕ} (h : o ≤ 2 ^ 53) : unitsOf o = o := by
  simpa using unitsOf_row (k := 0) (fun h => absurd rfl h) h

theorem unitsOf_zero : unitsOf 0 = 0 := unitsOf_of_le (Nat.zero_le _)

/-- Each double is in a row with the next one. -/
theorem exists_row (o : ℕ) : ∃ r k, o = r + k * 2 ^ 52 ∧ r < 2 ^ 53 ∧ (k ≠ 0 → 2 ^ 52 ≤ r) ∧
    unitsOf o = r * 2 ^ k ∧ unitsOf (o + 1) = (r + 1) * 2 ^ k := by
  obtain ⟨r, k, rfl, hr, hk⟩ : ∃ r k, o = r + k * 2 ^ 52 ∧ r < 2 ^ 53 ∧ (k ≠ 0 → 2 ^ 52 ≤ r) :=
    ⟨o - (o / 2 ^ 52 - 1) * 2 ^ 52, o / 2 ^ 52 - 1, by omega, by omega, by omega⟩
  refine ⟨r, k, rfl, hr, hk, unitsOf_row hk hr.le, ?_⟩
  rw [Nat.add_right_comm]
  exact unitsOf_row (by omega) hr

theorem unitsOf_lt_succ (o : ℕ) : unitsOf o < unitsOf (o + 1) := by
  obtain ⟨r, k, -, -, -, h, hsucc⟩ := exists_row o
  rw [h, hsucc]
  exact Nat.mul_lt_mul_of_pos_right (Nat.lt_succ_self r) (by positivity)

/-- The distances from a double to its neighbours: the upper one is the larger one only where a row
starts. -/
theorem unitsOf_gaps (o : ℕ) : ∃ below above, unitsOf (o + 1) = unitsOf o + below ∧
    unitsOf (o + 2) = unitsOf (o + 1) + above ∧ below ≤ above ∧ unitsOf (o + 1) ≤ 2 ^ 53 * below ∧
    (below = above ∨ unitsOf (o + 1) = 2 ^ 52 * above) := by
  obtain ⟨r, k, ho, hr, hk, hu, hsucc⟩ := exists_row o
  obtain ⟨r', k', ho', hr', hk', hu', hsucc'⟩ := exists_row (o + 1)
  have hle : k ≤ k' := by
    by_contra hlt
    have := hk (by omega)
    omega
  refine ⟨2 ^ k, 2 ^ k', by rw [hsucc, hu]; ring, by rw [hsucc', hu']; ring,
    Nat.pow_le_pow_right (by decide) hle, ?_, ?_⟩
  · rw [hsucc]
    exact Nat.mul_le_mul_right _ hr
  · rcases Nat.eq_or_lt_of_le hle with rfl | hlt
    · exact .inl rfl
    · have := hk' (by omega)
      obtain rfl : r' = 2 ^ 52 := by omega
      exact .inr hu'

theorem unitsOf_strictMono : StrictMono unitsOf := strictMono_nat_of_lt_succ unitsOf_lt_succ

theorem unitsOf_le_iff {o p : ℕ} : unitsOf o ≤ unitsOf p ↔ o ≤ p := unitsOf_strictMono.le_iff_le

theorem unitsOf_pos {o : ℕ} : 0 < unitsOf o ↔ 0 < o := by
  rw [show (0 : ℕ) = unitsOf 0 from rfl, unitsOf_strictMono.lt_iff_lt]
  exact Iff.rfl

/-! ### The nearest double -/

/-- `x` units round to the double of this ordinal: they lie between the two midpoints to its
neighbours, and on a midpoint only if the ordinal is even. -/
structure RoundsTo (x : ℚ) (o : ℕ) : Prop where
  low : (unitsOf (o - 1) : ℚ) + unitsOf o ≤ 2 * x
  high : 2 * x ≤ (unitsOf o : ℚ) + unitsOf (o + 1)
  even : 2 * x = (unitsOf (o - 1) : ℚ) + unitsOf o ∨ 2 * x = (unitsOf o : ℚ) + unitsOf (o + 1) →
    o % 2 = 0

namespace RoundsTo

variable {x y : ℚ} {o p : ℕ}

theorem not_lt (hx : RoundsTo x o) (hy : RoundsTo y p) (hle : y ≤ x) : ¬o < p := by
  intro hlt
  have hfirst : (unitsOf o : ℚ) ≤ unitsOf (p - 1) := by
    exact_mod_cast unitsOf_le_iff.mpr (by omega)
  have hsecond : (unitsOf (o + 1) : ℚ) ≤ unitsOf p := by
    exact_mod_cast unitsOf_le_iff.mpr (by omega)
  have ho : o % 2 = 0 := hx.even (.inr (by linarith [hx.high, hy.low]))
  have hp : p % 2 = 0 := hy.even (.inl (by linarith [hx.high, hy.low]))
  -- Both are even, so there is a double between them.
  have hbetween : (unitsOf (o + 1) : ℚ) < unitsOf p := by
    exact_mod_cast unitsOf_strictMono (by omega : o + 1 < p)
  linarith [hx.high, hy.low]

/-- A larger number rounds to no smaller double. -/
theorem mono (hx : RoundsTo x o) (hy : RoundsTo y p) (hle : x ≤ y) : o ≤ p :=
  Nat.le_of_not_lt (hy.not_lt hx hle)

theorem unique (hx : RoundsTo x o) (hy : RoundsTo x p) : o = p :=
  Nat.le_antisymm (hx.mono hy le_rfl) (hy.mono hx le_rfl)

/-- A double rounds to itself. -/
theorem self (o : ℕ) : RoundsTo (unitsOf o) o := by
  have hhigh : (unitsOf o : ℚ) < unitsOf (o + 1) := by exact_mod_cast unitsOf_lt_succ o
  cases o with
  | zero => exact ⟨by simp [unitsOf], by linarith, fun _ => rfl⟩
  | succ o =>
    have hlow : (unitsOf o : ℚ) < unitsOf (o + 1) := by exact_mod_cast unitsOf_lt_succ o
    refine ⟨by rw [Nat.add_sub_cancel]; linarith, by linarith, ?_⟩
    rw [Nat.add_sub_cancel]
    rintro (h | h) <;> linarith

theorem eq_zero (h : RoundsTo x o) (hx : 2 * x < 1) : o = 0 := by
  have : unitsOf o < 1 := by
    have : (unitsOf o : ℚ) < 1 := by linarith [h.low, (unitsOf (o - 1)).cast_nonneg (α := ℚ)]
    exact_mod_cast this
  by_contra hne
  have := unitsOf_pos.mpr (Nat.pos_of_ne_zero hne)
  omega

/-- What is as close to a double as a number that rounds to it does so too, if the number lies below
the double, or the other one above it, or both neighbours of the double are at the same distance. -/
theorem of_abs_le (hx : RoundsTo x o) (h : |y - unitsOf o| ≤ |x - unitsOf o|) (hy : 0 ≤ y)
    (hgap : x ≤ unitsOf o ∨ (unitsOf o : ℚ) ≤ y ∨
      unitsOf (o + 1) + unitsOf (o - 1) = 2 * unitsOf o) : RoundsTo y o := by
  cases o with
  | zero =>
    have hzero : (unitsOf 0 : ℚ) = 0 := rfl
    have hxy : y ≤ x := by
      have hx0 : 0 ≤ x := by linarith [hx.low, hzero]
      rwa [hzero, sub_zero, sub_zero, abs_of_nonneg hx0, abs_of_nonneg hy] at h
    refine ⟨by simpa [unitsOf] using hy, by linarith [hx.high], fun _ => rfl⟩
  | succ o =>
    obtain ⟨below, above, hbelow, habove, hle, -, -⟩ := unitsOf_gaps o
    obtain ⟨hlow, hhigh, heven⟩ := hx
    rw [Nat.add_sub_cancel] at hlow heven hgap
    have hbelow : (unitsOf (o + 1) : ℚ) = unitsOf o + below := by exact_mod_cast hbelow
    have habove : (unitsOf (o + 1 + 1) : ℚ) = unitsOf (o + 1) + above := by exact_mod_cast habove
    have hle : (below : ℚ) ≤ above := by exact_mod_cast hle
    obtain ⟨hy1, hy2⟩ := abs_le.mp h
    have hdist : |x - unitsOf (o + 1)| ≤ above / 2 := by
      rw [abs_le]
      constructor <;> linarith
    have hpos : (unitsOf o : ℚ) < unitsOf (o + 1) := by exact_mod_cast unitsOf_lt_succ o
    -- Below the double `y` is no further from it than half the way to its lower neighbour, and if
    -- it is as far, `x` is on a midpoint.
    have hlower : y < unitsOf (o + 1) → |x - unitsOf (o + 1)| ≤ below / 2 ∧
        (x ≤ unitsOf (o + 1) ∨ (below : ℚ) = above) := by
      intro hyu
      rcases hgap with hgap | hgap | hgap
      · rw [abs_of_nonpos (by linarith)]
        exact ⟨by linarith, .inl hgap⟩
      · exact absurd hyu (not_lt_of_ge hgap)
      · have hgap : (unitsOf (o + 1 + 1) : ℚ) + unitsOf o = 2 * unitsOf (o + 1) := by
          exact_mod_cast hgap
        have heq : (below : ℚ) = above := by linarith
        exact ⟨by rwa [heq], .inr heq⟩
    refine ⟨?_, by linarith, ?_⟩
    · rw [Nat.add_sub_cancel]
      rcases lt_or_ge y (unitsOf (o + 1)) with hyu | hyu
      · linarith [(hlower hyu).1]
      · linarith
    · rw [Nat.add_sub_cancel]
      intro hmid
      refine heven ?_
      rcases hmid with hmid | hmid
      · obtain ⟨hdist', hside⟩ := hlower (by linarith)
        rcases abs_cases (x - unitsOf (o + 1)) with ⟨ha, -⟩ | ⟨ha, -⟩
        · rcases hside with hside | hside <;> exact .inr (by linarith)
        · exact .inl (by linarith)
      · rcases abs_cases (x - unitsOf (o + 1)) with ⟨ha, -⟩ | ⟨ha, -⟩
        · exact .inr (by linarith)
        · exact .inl (by linarith)

end RoundsTo

/-- A number that has a nearest whole number in row `k` rounds to the double there. -/
theorem RoundsTo.of_nearestNat {x : ℚ} {r k : ℕ} (hx : 0 ≤ x) (h : NearestNat (x / 2 ^ k) r)
    (hlow : k ≠ 0 → (2 : ℚ) ^ 52 ≤ x / 2 ^ k) (hhigh : x / 2 ^ k < 2 ^ 53) :
    RoundsTo x (r + k * 2 ^ 52) := by
  obtain ⟨y, hy⟩ : ∃ y, y = x / 2 ^ k := ⟨_, rfl⟩
  have hpow : (0 : ℚ) < 2 ^ k := by positivity
  obtain rfl : x = y * 2 ^ k := by rw [hy]; field_simp
  rw [← hy] at h hlow hhigh
  have hk : k ≠ 0 → 2 ^ 52 ≤ r := by
    intro hk
    have : ((2 ^ 53 : ℕ) : ℚ) ≤ ((2 * r + 1 : ℕ) : ℚ) := by
      push_cast
      linarith [hlow hk, h.high]
    have : 2 ^ 53 ≤ 2 * r + 1 := by exact_mod_cast this
    omega
  have hr : r ≤ 2 ^ 53 := by
    have : ((2 * r : ℕ) : ℚ) < ((2 * 2 ^ 53 + 1 : ℕ) : ℚ) := by
      push_cast
      linarith [h.low]
    have : 2 * r < 2 * 2 ^ 53 + 1 := by exact_mod_cast this
    omega
  have hu : (unitsOf (r + k * 2 ^ 52) : ℚ) = r * 2 ^ k := by
    exact_mod_cast unitsOf_row hk hr
  have hupper : ((r : ℚ) + 1) * 2 ^ k ≤ unitsOf (r + k * 2 ^ 52 + 1) := by
    have : (r + 1) * 2 ^ k ≤ unitsOf (r + k * 2 ^ 52 + 1) := by
      rcases Nat.lt_or_eq_of_le hr with hlt | rfl
      · rw [Nat.add_right_comm, unitsOf_row (by omega) hlt]
      · rw [show 2 ^ 53 + k * 2 ^ 52 + 1 = 2 ^ 52 + 1 + (k + 1) * 2 ^ 52 by ring,
          unitsOf_row (by omega) (by omega), pow_succ]
        omega
    exact_mod_cast this
  have hy0 : 0 ≤ y := by rw [hy]; positivity
  -- Where the double starts a row, its lower neighbour is nearer, but then `y` is not below it.
  have hlower : (r : ℚ) ≤ y ∨ (unitsOf (r + k * 2 ^ 52 - 1) : ℚ) = (r - 1) * 2 ^ k := by
    by_cases hstart : r = 0 ∨ (k ≠ 0 ∧ r = 2 ^ 52)
    · left
      rcases hstart with rfl | ⟨hk0, rfl⟩
      · exact_mod_cast hy0
      · exact_mod_cast hlow hk0
    · right
      obtain ⟨s, rfl⟩ : ∃ s, r = s + 1 := ⟨r - 1, by omega⟩
      rw [Nat.add_right_comm, Nat.add_sub_cancel, unitsOf_row (by omega) (by omega)]
      push_cast
      ring
  have hnearLow : 2 * (r : ℚ) * 2 ^ k ≤ (2 * y + 1) * 2 ^ k :=
    mul_le_mul_of_nonneg_right h.low hpow.le
  have hnearHigh : 2 * y * 2 ^ k ≤ (2 * (r : ℚ) + 1) * 2 ^ k :=
    mul_le_mul_of_nonneg_right h.high hpow.le
  have hparity : r % 2 = 0 → (r + k * 2 ^ 52) % 2 = 0 := by omega
  refine ⟨?_, by linarith, ?_⟩
  · rcases hlower with hry | hbelow
    · have hle : (unitsOf (r + k * 2 ^ 52 - 1) : ℚ) ≤ unitsOf (r + k * 2 ^ 52) := by
        exact_mod_cast unitsOf_le_iff.mpr (Nat.sub_le _ _)
      have : (r : ℚ) * 2 ^ k ≤ y * 2 ^ k := mul_le_mul_of_nonneg_right hry hpow.le
      linarith
    · linarith
  · rintro (hmid | hmid)
    · rcases hlower with hry | hbelow
      · rcases Nat.eq_zero_or_pos (r + k * 2 ^ 52) with ho | ho
        · rw [ho]
        · have hlt : (unitsOf (r + k * 2 ^ 52 - 1) : ℚ) < unitsOf (r + k * 2 ^ 52) := by
            exact_mod_cast unitsOf_strictMono (Nat.sub_lt ho Nat.one_pos)
          have : (r : ℚ) * 2 ^ k ≤ y * 2 ^ k := mul_le_mul_of_nonneg_right hry hpow.le
          linarith
      · refine hparity (h.even (.inl ?_))
        have : 2 * (r : ℚ) * 2 ^ k = (2 * y + 1) * 2 ^ k := by linarith
        exact mul_right_cancel₀ hpow.ne' this
    · refine hparity (h.even (.inr ?_))
      have : 2 * y * 2 ^ k = (2 * (r : ℚ) + 1) * 2 ^ k := by linarith
      exact mul_right_cancel₀ hpow.ne' this

/-- What is computed is the nearest double. -/
theorem nearestOrdinal_roundsTo {n d : ℕ} (hd : 0 < d) :
    RoundsTo ((n : ℚ) / d) (nearestOrdinal n d) := by
  have hdpos : (0 : ℚ) < d := Nat.cast_pos.mpr hd
  obtain ⟨k, hk⟩ : ∃ k, k = Nat.log2 (n / d) - 52 := ⟨_, rfl⟩
  have hscaled : (n : ℚ) / d / 2 ^ k = (n : ℚ) / ((d * 2 ^ k : ℕ) : ℚ) := by
    push_cast
    rw [div_div]
  have hlt : n / d < 2 ^ (53 + k) := by
    rcases Nat.eq_zero_or_pos (n / d) with h | h
    · rw [h]
      positivity
    · exact (Nat.log2_lt h.ne').mp (by omega)
  rw [nearestOrdinal, ← hk]
  refine RoundsTo.of_nearestNat (by positivity) ?_ ?_ ?_
  · rw [hscaled]
    exact roundDiv_nearest (by positivity)
  · intro hk0
    have hge : 2 ^ (52 + k) ≤ n / d := by
      have hpos : n / d ≠ 0 := by
        intro h
        rw [h, Nat.log2_zero] at hk
        omega
      exact (Nat.le_log2 hpos).mp (by omega)
    have hge : ((2 ^ 52 * 2 ^ k * d : ℕ) : ℚ) ≤ n := by
      exact_mod_cast (Nat.le_div_iff_mul_le hd).mp (by rwa [pow_add] at hge)
    rw [hscaled, le_div_iff₀ (by positivity)]
    push_cast at hge ⊢
    linarith
  · have hlt : (n : ℚ) < ((2 ^ 53 * 2 ^ k * d : ℕ) : ℚ) := by
      exact_mod_cast (Nat.div_lt_iff_lt_mul hd).mp (by rwa [pow_add] at hlt)
    rw [hscaled, div_lt_iff₀ (by positivity)]
    push_cast at hlt ⊢
    linarith

theorem RoundsTo.exists_of_nonneg {x : ℚ} (hx : 0 ≤ x) : ∃ o, RoundsTo x o := by
  refine ⟨nearestOrdinal x.num.toNat x.den, ?_⟩
  have hnum : ((x.num.toNat : ℕ) : ℚ) = x.num := by
    exact_mod_cast Int.toNat_of_nonneg (Rat.num_nonneg.mpr hx)
  have := nearestOrdinal_roundsTo (n := x.num.toNat) x.den_pos
  rwa [hnum, Rat.num_div_den] at this

theorem nearestOrdinal_eq_iff {n d o : ℕ} (hd : 0 < d) :
    nearestOrdinal n d = o ↔ RoundsTo ((n : ℚ) / d) o := by
  refine ⟨?_, fun h => (nearestOrdinal_roundsTo hd).unique h⟩
  rintro rfl
  exact nearestOrdinal_roundsTo hd

/-- The nearest double is the one of this ordinal if there is one, and infinite otherwise. -/
theorem Double.nearest_of_roundsTo {negative : Bool} {n d o : ℕ} (hd : 0 < d)
    (h : RoundsTo ((n : ℚ) / d) o) : Double.nearest negative n d =
      if ho : o < ordinalCount then .finite negative o ho else .infinite negative := by
  obtain rfl := (nearestOrdinal_eq_iff hd).mpr h
  rfl

/-! ### One, and the bound of all finite doubles -/

theorem unitsPerOne_eq : unitsPerOne = 2 ^ 1074 := by decide +kernel

theorem unitsPerOne_pos : 0 < unitsPerOne := by
  rw [unitsPerOne_eq]
  positivity

theorem cast_unitsPerOne_pos : (0 : ℚ) < unitsPerOne := by exact_mod_cast unitsPerOne_pos

theorem cast_two_pow (k : ℕ) : ((2 ^ k : ℕ) : ℚ) = 2 ^ k := by norm_cast

theorem cast_unitsPerOne : (unitsPerOne : ℚ) = 2 ^ 1074 := by
  rw [unitsPerOne_eq, cast_two_pow]

theorem unitsOf_ordinalCount : (unitsOf ordinalCount : ℚ) = 2 ^ 1024 * unitsPerOne := by
  have ho : ordinalCount = 2 ^ 52 + 2046 * 2 ^ 52 := by decide
  have hpow : 2 ^ 52 * 2 ^ 2046 = 2 ^ 1024 * 2 ^ 1074 := by decide +kernel
  rw [ho, unitsOf_row (fun _ => le_rfl) (by decide), hpow, Nat.cast_mul, cast_two_pow,
    cast_two_pow, cast_unitsPerOne]

end Reckoner
