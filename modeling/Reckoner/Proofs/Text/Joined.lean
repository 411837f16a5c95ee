import Mathlib.Data.List.Chain
import Reckoner.Text.Loose

/-! Loose texts and their code units.  A text is joined if no two halves in it make a pair; what is
made of code points is joined, and a joined text is made again of its own code units. -/

namespace Reckoner

namespace Symbol

/-- The code units of a symbol: a character above `U+FFFF` has two. -/
def units : Symbol → List ℕ
  | char c =>
    if c.toNat < 0x10000 then [c.toNat]
    else [0xd800 + (c.toNat - 0x10000) / 0x400, 0xdc00 + (c.toNat - 0x10000) % 0x400]
  | half s => [s.unit]

/-- Whether two symbols are the halves of a pair. -/
def pairs : Symbol → Symbol → Bool
  | half s, half t => isHighSurrogate s.unit && isLowSurrogate t.unit
  | _, _ => false

end Symbol

theorem toNat_lt (c : Char) : c.toNat < 0xd800 ∨ 0xe000 ≤ c.toNat ∧ c.toNat < 0x110000 := by
  have := c.valid
  simp only [UInt32.isValidChar, Nat.isValidChar] at this
  simp only [Char.toNat]
  omega

theorem isHighSurrogate_eq_true {n : ℕ} : isHighSurrogate n = true ↔ 0xd800 ≤ n ∧ n < 0xdc00 := by
  rw [isHighSurrogate, Bool.and_eq_true, decide_eq_true_eq, decide_eq_true_eq]

theorem isLowSurrogate_eq_true {n : ℕ} : isLowSurrogate n = true ↔ 0xdc00 ≤ n ∧ n < 0xe000 := by
  rw [isLowSurrogate, Bool.and_eq_true, decide_eq_true_eq, decide_eq_true_eq]

namespace LooseText

/-- No two halves side by side make a pair. -/
def IsJoined (s : LooseText) : Prop := s.IsChain fun a b => a.pairs b = false

variable {s : LooseText} {points : List ℕ}

theorem isJoined_loose (s : Text) : (Text.loose s).IsJoined := by
  induction s with
  | nil => exact .nil
  | cons c s ih => exact List.isChain_cons.mpr ⟨fun _ _ => rfl, ih⟩

/-! ### Of code points -/

theorem ofCodePoints_cons {n : ℕ} (h : isHighSurrogate n = false ∨
    ∀ low ∈ points.head?, isLowSurrogate low = false) :
    ofCodePoints (n :: points) = .ofCodePoint n :: ofCodePoints points := by
  cases points with
  | nil => rfl
  | cons low points =>
    have hpair : (isHighSurrogate n && isLowSurrogate low) = false := by
      rcases h with h | h
      · rw [h, Bool.false_and]
      · rw [h low rfl, Bool.and_false]
    rw [ofCodePoints, hpair]
    rfl

theorem ofCodePoints_pair {high low : ℕ} (hhigh : isHighSurrogate high = true)
    (hlow : isLowSurrogate low = true) : ofCodePoints (high :: low :: points) =
      .ofCodePoint (0x10000 + (high - 0xd800) * 0x400 + (low - 0xdc00)) :: ofCodePoints points := by
  rw [ofCodePoints, hhigh, hlow]
  rfl

/-- The joined text of code points starts with a low half only if they do. -/
theorem head?_ofCodePoints {a : Symbol} (h : ∀ low ∈ points.head?, isLowSurrogate low = false) :
    ∀ b ∈ (ofCodePoints points).head?, a.pairs b = false := by
  intro b hb
  have hchar (n : ℕ) (hn : isLowSurrogate n = false) : a.pairs (.ofCodePoint n) = false := by
    rw [Symbol.ofCodePoint]
    split
    case isTrue => cases a <;> simp [Symbol.pairs, hn]
    case isFalse => cases a <;> rfl
  rcases points with _ | ⟨high, _ | ⟨low, points⟩⟩
  · cases hb
  · obtain rfl := Option.some.inj hb
    exact hchar high (h high rfl)
  · rw [ofCodePoints] at hb
    split at hb
    case isTrue hpair =>
      rw [Bool.and_eq_true, isHighSurrogate_eq_true, isLowSurrogate_eq_true] at hpair
      obtain rfl := Option.some.inj hb
      refine hchar _ ?_
      rw [← Bool.not_eq_true, isLowSurrogate_eq_true]
      omega
    case isFalse =>
      obtain rfl := Option.some.inj hb
      exact hchar high (h high rfl)

theorem isJoined_ofCodePoints (points : List ℕ) : (ofCodePoints points).IsJoined := by
  fun_induction ofCodePoints points with
  | case1 => exact .nil
  | case2 => exact .singleton _
  | case3 high low points hpair ih =>
    refine List.isChain_cons.mpr ⟨fun b _ => ?_, ih⟩
    rw [Bool.and_eq_true, isHighSurrogate_eq_true, isLowSurrogate_eq_true] at hpair
    rw [Symbol.ofCodePoint, dif_neg (by omega)]
    rfl
  | case4 high low points hpair ih =>
    refine List.isChain_cons.mpr ⟨?_, ih⟩
    rw [Bool.not_eq_true, Bool.and_eq_false_iff] at hpair
    rcases hpair with hhigh | hlow
    · intro b _
      rw [Symbol.ofCodePoint]
      split
      case isTrue => cases b <;> simp [Symbol.pairs, hhigh]
      case isFalse => rfl
    · exact head?_ofCodePoints fun n hn => Option.some.inj hn ▸ hlow

/-! ### Of code units -/

theorem ofCodePoint_unit (s : Surrogate) : Symbol.ofCodePoint s.unit = .half s := by
  rw [Symbol.ofCodePoint, dif_pos s.bounds]

theorem isLowSurrogate_head?_units {a : Symbol} (h : ∀ b ∈ s.head?, a.pairs b = false) {t : Surrogate}
    (ha : a = .half t) (hhigh : isHighSurrogate t.unit = true) :
    ∀ low ∈ (s.flatMap Symbol.units).head?, isLowSurrogate low = false := by
  intro low hlow
  cases s with
  | nil => cases hlow
  | cons b s =>
    have hpairs := h b rfl
    rw [← Bool.not_eq_true, isLowSurrogate_eq_true]
    cases b with
    | half u =>
      rw [ha, Symbol.pairs, hhigh, Bool.true_and, ← Bool.not_eq_true, isLowSurrogate_eq_true]
        at hpairs
      obtain rfl : u.unit = low := by simpa [Symbol.units] using hlow
      exact hpairs
    | char c =>
      have := toNat_lt c
      rw [List.flatMap_cons, Symbol.units] at hlow
      split at hlow
      case isTrue =>
        obtain rfl : c.toNat = low := by simpa using hlow
        omega
      case isFalse =>
        obtain rfl : 0xd800 + (c.toNat - 0x10000) / 0x400 = low := by simpa using hlow
        omega

/-- A joined text is made of its code units. -/
theorem ofCodePoints_units (h : s.IsJoined) : ofCodePoints (s.flatMap Symbol.units) = s := by
  induction s with
  | nil => rfl
  | cons a s ih =>
    obtain ⟨hhead, hs⟩ := List.isChain_cons.mp h
    rw [List.flatMap_cons]
    cases a with
    | half t =>
      have hcons : isHighSurrogate t.unit = false ∨
          ∀ low ∈ (s.flatMap Symbol.units).head?, isLowSurrogate low = false := by
        cases hhigh : isHighSurrogate t.unit with
        | false => exact .inl rfl
        | true => exact .inr (isLowSurrogate_head?_units hhead rfl hhigh)
      rw [Symbol.units, List.singleton_append, ofCodePoints_cons hcons, ofCodePoint_unit, ih hs]
    | char c =>
      have hc := toNat_lt c
      rw [Symbol.units]
      split
      case isTrue hsmall =>
        have hhigh : isHighSurrogate c.toNat = false := by
          rw [← Bool.not_eq_true, isHighSurrogate_eq_true]
          omega
        rw [List.singleton_append, ofCodePoints_cons (.inl hhigh), Symbol.ofCodePoint_toNat, ih hs]
      case isFalse hlarge =>
        rw [List.cons_append, List.singleton_append, ofCodePoints_pair
          (isHighSurrogate_eq_true.mpr (by omega)) (isLowSurrogate_eq_true.mpr (by omega)), ih hs,
          show 0x10000 + (0xd800 + (c.toNat - 0x10000) / 0x400 - 0xd800) * 0x400 +
            (0xdc00 + (c.toNat - 0x10000) % 0x400 - 0xdc00) = c.toNat by omega,
          Symbol.ofCodePoint_toNat]

end LooseText

end Reckoner
