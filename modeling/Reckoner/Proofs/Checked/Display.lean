import Reckoner.Proofs.Checked.Conversion
import Reckoner.Proofs.Number.Positional
import Reckoner.Proofs.Number.Rounding

/-! The tokens are written as they are without partial operations.  A number is cut to an integer
only where it is one and is small, so it is neither infinite nor has it too many digits. -/

namespace Reckoner

section Whole

variable {value : Double} {n : ℤ}

/-- The units of a whole number. -/
theorem exists_units_of_toInt? (h : value.toInt? = some n) :
    ∃ negative o ho, value = .finite negative o ho ∧ unitsOf o = n.natAbs * unitsPerOne ∧
      n = if negative then -(n.natAbs : ℤ) else n.natAbs := by
  cases value with
  | infinite | nan => cases h
  | finite negative o ho =>
    rw [Double.toInt?] at h
    split at h
    case isFalse => cases h
    case isTrue hmod =>
      obtain rfl := Option.some.inj h
      have hunits := Nat.div_mul_cancel (Nat.dvd_of_mod_eq_zero hmod)
      generalize unitsOf o / unitsPerOne = whole at hunits
      have habs : (if negative then -(whole : ℤ) else whole).natAbs = whole := by
        cases negative <;> simp
      exact ⟨negative, o, ho, rfl, by rw [habs, hunits], by rw [habs]⟩

/-- Whole numbers are ordered as their ordinals. -/
theorem ordinal_lt_iff {o p m k : ℕ} (ho : unitsOf o = m * unitsPerOne)
    (hp : unitsOf p = k * unitsPerOne) : o < p ↔ m < k := by
  rw [← unitsOf_strictMono.lt_iff_lt, ho, hp, Nat.mul_lt_mul_right unitsPerOne_pos]

theorem abs_lt_whole {p m : ℕ} {hp : p < ordinalCount} (hm : unitsOf p = m * unitsPerOne)
    (h : value.toInt? = some n) :
    value.abs.lt (.finite false p hp) = decide (n.natAbs < m) := by
  obtain ⟨negative, o, ho, rfl, hunits, -⟩ := exists_units_of_toInt? h
  have hlt := ordinal_lt_iff hunits hm
  simpa [Double.lt, Double.rank?, Double.abs] using hlt

end Whole

namespace Checked

theorem truncated_of_toInt? {value : Double} {n : ℤ} (h : value.toInt? = some n) :
    truncated value = .ok n := by
  cases value with
  | infinite | nan => cases h
  | finite negative o ho =>
    rw [Double.toInt?] at h
    split at h
    case isFalse => cases h
    case isTrue => exact congrArg Except.ok (Option.some.inj h)

/-- The text of a small integer has few digits. -/
theorem integerText_of_lt {n : ℤ} (h : n.natAbs < 10 ^ 15) :
    integerText n = .ok (Text.ofInt n) := by
  have hlength : (Text.ofNat n.natAbs).length ≤ 15 :=
    (Nat.length_toDigits_le_iff (by decide) (by decide)).mpr h
  have hshort : ¬maxIntegerDigits < (Text.ofNat n.natAbs).length :=
    Nat.not_lt.mpr (hlength.trans (by decide))
  rw [integerText, Text.ofInt?, if_neg hshort]
  rfl

theorem tokenText_number (value : Double) (position : ℤ) :
    tokenText (Token.raw ⟨.number value, position⟩) = .ok (numberText value) := by
  have hlimit : Double.ofNat (Nat.pow 10 15) = .finite false 0x430c6bf526340000 (by decide) := by
    decide +kernel
  have hunits : unitsOf 0x430c6bf526340000 = 10 ^ 15 * unitsPerOne := by decide +kernel
  have htext : tokenText (Token.raw ⟨.number value, position⟩) =
      if value.toInt?.isSome && value.abs.lt (.ofNat (Nat.pow 10 15)) then do
        integerText (← truncated value)
      else return value.text := rfl
  rw [htext, numberText, hlimit]
  cases h : value.toInt? with
  | none => rfl
  | some n =>
    simp only [abs_lt_whole hunits h, truncated_of_toInt? h, Option.isSome_some, Bool.true_and,
      decide_eq_true_eq]
    by_cases hn : n.natAbs < 10 ^ 15
    · have hpow : n.natAbs < Nat.pow 10 15 := hn
      rw [if_pos hn, if_pos hpow]
      exact integerText_of_lt hn
    · have hpow : ¬n.natAbs < Nat.pow 10 15 := hn
      rw [if_neg hn, if_neg hpow]
      rfl

/-- A token is written as the item that it is made from. -/
theorem tokenText_raw (t : Token) : tokenText t.raw = .ok t.item.text := by
  obtain ⟨item, position⟩ := t
  cases item with
  | number value => exact tokenText_number value position
  | _ => rfl

theorem tokensText_raw (tokens : List Token) :
    tokensText (tokens.map Token.raw) = .ok (Reckoner.tokensText tokens) := by
  have hall : (tokens.map Token.raw).mapM tokenText = .ok (tokens.map (·.item.text)) := by
    induction tokens with
    | nil => rfl
    | cons t tokens ih =>
      rw [List.map_cons, List.mapM_cons, tokenText_raw, ih]
      rfl
  rw [tokensText, hall]
  rfl

end Checked

end Reckoner
