import Reckoner.Number.Arithmetic
import Reckoner.Proofs.Number.Rounding

/-! The number that a double is.  A finite double is a whole number of units, so it is a rational,
an integer where one divides its units, and twice as large as another where the units are. -/

namespace Reckoner

/-- The number that a finite double is; a double that is infinite or no number counts as zero. -/
def Double.toRat : Double → ℚ
  | finite negative ordinal _ => signedUnits negative ordinal / unitsPerOne
  | infinite _ | nan => 0

section Exact

variable {o : ℕ} {negative : Bool} {ho : o < ordinalCount}

theorem toRat_finite (negative : Bool) (ho : o < ordinalCount) :
    (Double.finite negative o ho).toRat =
      (if negative then -1 else 1) * ((unitsOf o : ℚ) / unitsPerOne) := by
  rw [Double.toRat, Double.signedUnits]
  split
  · rw [Int.cast_neg, Int.cast_natCast, neg_div, neg_one_mul]
  · rw [Int.cast_natCast, one_mul]

theorem abs_toRat (negative : Bool) (ho : o < ordinalCount) :
    |(Double.finite negative o ho).toRat| = (unitsOf o : ℚ) / unitsPerOne := by
  have hnonneg : (0 : ℚ) ≤ (unitsOf o : ℚ) / unitsPerOne :=
    div_nonneg (Nat.cast_nonneg _) cast_unitsPerOne_pos.le
  have hsign : |(if negative then -1 else 1 : ℚ)| = 1 := by cases negative <;> simp
  rw [toRat_finite, abs_mul, abs_of_nonneg hnonneg, hsign, one_mul]

theorem toRat_lt_zero (h : 0 < o) : (Double.finite negative o ho).toRat < 0 ↔ negative = true := by
  have hpos : (0 : ℚ) < (unitsOf o : ℚ) / unitsPerOne :=
    div_pos (Nat.cast_pos.mpr (unitsOf_pos.mpr h)) cast_unitsPerOne_pos
  rw [toRat_finite]
  generalize (unitsOf o : ℚ) / unitsPerOne = x at hpos ⊢
  cases negative with
  | false => simpa using hpos.le
  | true => simpa using hpos

/-- A double is an integer where one divides its units. -/
theorem toInt?_eq_some_iff {n : ℤ} :
    (Double.finite negative o ho).toInt? = some n ↔ (Double.finite negative o ho).toRat = n := by
  have hrat : (Double.finite negative o ho).toRat = n ↔
      Double.signedUnits negative o = n * unitsPerOne := by
    rw [Double.toRat, div_eq_iff cast_unitsPerOne_pos.ne']
    exact_mod_cast Iff.rfl
  have hsigned {m : ℕ} (hm : m * unitsPerOne = unitsOf o) : Double.signedUnits negative o =
      (if negative then -(m : ℤ) else m) * unitsPerOne := by
    rw [Double.signedUnits, ← hm, Nat.cast_mul]
    split
    · exact (neg_mul _ _).symm
    · rfl
  rw [hrat, Double.toInt?]
  constructor
  · intro h
    split at h
    case isFalse => cases h
    case isTrue hmod =>
      obtain rfl := Option.some.inj h
      exact hsigned (Nat.div_mul_cancel (Nat.dvd_of_mod_eq_zero hmod))
  · intro h
    have hm : n.natAbs * unitsPerOne = unitsOf o := by
      have habs := congrArg Int.natAbs h
      rw [Int.natAbs_mul, Int.natAbs_natCast, Double.signedUnits] at habs
      cases negative <;> simpa using habs.symm
    have hn : (if negative then -(n.natAbs : ℤ) else n.natAbs) = n :=
      mul_right_cancel₀ (by exact_mod_cast unitsPerOne_pos.ne') ((hsigned hm).symm.trans h)
    rw [← hm, Nat.mul_mod_left, Nat.mul_div_cancel _ unitsPerOne_pos, if_pos rfl, hn]

theorem natAbs_mul_of_toInt? {n : ℤ} (h : (Double.finite negative o ho).toInt? = some n) :
    n.natAbs * unitsPerOne = unitsOf o := by
  have hn := congrArg abs (toInt?_eq_some_iff.mp h)
  rw [abs_toRat, div_eq_iff cast_unitsPerOne_pos.ne', ← Int.cast_abs, Int.abs_eq_natAbs] at hn
  exact_mod_cast hn.symm

/-- From `2 ^ 52` on every double is an integer. -/
theorem dvd_unitsOf (h : 2 ^ 52 * unitsPerOne ≤ unitsOf o) : unitsPerOne ∣ unitsOf o := by
  obtain ⟨r, k, -, hr, -, hunits, -⟩ := exists_row o
  rw [unitsPerOne_eq, hunits] at h ⊢
  generalize 1074 = bits at h ⊢
  have hlt : r * 2 ^ k < 2 ^ (53 + k) := by
    rw [pow_add]
    exact Nat.mul_lt_mul_of_pos_right hr (by positivity)
  rw [← pow_add] at h
  have hbits : 52 + bits < 53 + k := (Nat.pow_lt_pow_iff_right (by decide)).mp (h.trans_lt hlt)
  have hk : bits ≤ k := by omega
  exact (pow_dvd_pow 2 hk).mul_left r

/-- The smallest normal double, where the first row with 53 bits starts. -/
theorem unitsOf_smallestNormal :
    (unitsOf (2 ^ 52) : ℚ) = (2 : ℚ) ^ (-1022 : ℤ) * unitsPerOne := by
  have hfirst : unitsOf (2 ^ 52) = 2 ^ 52 := unitsOf_of_le (by decide)
  rw [hfirst, cast_unitsPerOne, ← zpow_natCast, ← zpow_add₀ (by norm_num), cast_two_pow,
    ← zpow_natCast]
  norm_num

theorem smallestNormal_le_iff :
    (2 : ℚ) ^ (-1022 : ℤ) ≤ (unitsOf o : ℚ) / unitsPerOne ↔ 2 ^ 52 ≤ o := by
  rw [le_div_iff₀ cast_unitsPerOne_pos, ← unitsOf_smallestNormal, ← unitsOf_le_iff]
  exact_mod_cast Iff.rfl

/-! ### Doubling -/

end Exact

end Reckoner
