import Mathlib.Algebra.Group.Nat.Defs
import Reckoner.Json.Reader
import Reckoner.Json.Writer
import Reckoner.Proofs.Text.Joined

/-! Strings in JSON.  Between the quotes each symbol is written so that its code units are read
again, whether it is escaped or not, and the text is made of them. -/

namespace Reckoner

/-! ### Hexadecimal digits -/

theorem hexDigit?_digitChar : ∀ d < 16, hexDigit? (Nat.digitChar d) = some d := by decide

theorem hexadecimal?_concat (digits : Text) (c : Char) : hexadecimal? (digits ++ [c]) =
    (hexadecimal? digits).bind fun n => (hexDigit? c).map (n * 16 + ·) := by
  rw [hexadecimal?, List.foldlM_append]
  cases h : List.foldlM (fun n c => (hexDigit? c).map (n * 16 + ·)) 0 digits with
  | none => simp [hexadecimal?, h]
  | some n => simp [hexadecimal?, h]

/-- A further digit. -/
theorem hexadecimal_succ {width : ℕ} (hwidth : 0 < width) (n : ℕ) :
    Text.hexadecimal (width + 1) n =
      Text.hexadecimal width (n / 16) ++ [Nat.digitChar (n % 16)] := by
  rw [Text.hexadecimal, Text.hexadecimal]
  rcases Nat.lt_or_ge n 16 with hlt | hge
  · rw [Nat.toDigits_of_lt_base hlt, Nat.div_eq_of_lt hlt, Nat.mod_eq_of_lt hlt,
      Nat.toDigits_of_lt_base (by decide)]
    obtain ⟨w, rfl⟩ := Nat.exists_eq_succ_of_ne_zero hwidth.ne'
    simp [List.replicate_succ', Nat.digitChar]
  · have hdigits : Nat.toDigits 16 n = Nat.toDigits 16 (n / 16) ++ [Nat.digitChar (n % 16)] := by
      rw [Nat.toDigits_eq_if (by decide), if_neg (by omega)]
    rw [hdigits, List.length_append, List.length_singleton, Nat.add_sub_add_right,
      List.append_assoc]

theorem length_hexadecimal {width n : ℕ} (hwidth : 0 < width) (hn : n < 16 ^ width) :
    (Text.hexadecimal width n).length = width := by
  rw [Text.hexadecimal, List.length_append, List.length_replicate]
  have := (Nat.length_toDigits_le_iff (b := 16) (by decide) hwidth).mpr hn
  omega

theorem hexadecimal?_hexadecimal {width n : ℕ} (hwidth : 0 < width) (hn : n < 16 ^ width) :
    hexadecimal? (Text.hexadecimal width n) = some n := by
  induction width, hwidth using Nat.le_induction generalizing n with
  | base =>
    have hn : n < 16 := by simpa using hn
    rw [Text.hexadecimal, Nat.toDigits_of_lt_base hn]
    exact (hexadecimal?_concat [] _).trans (by simp [hexadecimal?, hexDigit?_digitChar n hn])
  | succ width hwidth ih =>
    rw [Nat.pow_succ] at hn
    rw [hexadecimal_succ hwidth, hexadecimal?_concat, ih (Nat.div_lt_of_lt_mul (by omega)),
      hexDigit?_digitChar _ (Nat.mod_lt n (by decide))]
    simp only [Option.bind_some, Option.map_some, Option.some.injEq]
    omega

namespace Json

/-! ### Code units -/

theorem codePoints_unitEscape {n : ℕ} (h : n < 0x10000) (s : Text) :
    codePoints (unitEscape n ++ s) = (codePoints s).map fun (more, rest) => (n :: more, rest) := by
  have hlength := length_hexadecimal (show 0 < 4 by decide) h
  have hread := hexadecimal?_hexadecimal (show 0 < 4 by decide) h
  rw [unitEscape]
  match hdigits : Text.hexadecimal 4 n, hlength with
  | [a, b, c, d], _ =>
    rw [hdigits] at hread
    show codePoints ('\\' :: 'u' :: a :: b :: c :: d :: s) = _
    rw [codePoints, hread]

/-- A character that needs no escape stands for itself. -/
theorem codePoints_plain {c : Char} (hquote : c ≠ '"') (hbackslash : c ≠ '\\')
    (hc : 0x20 ≤ c.toNat) (s : Text) :
    codePoints (c :: s) = (codePoints s).map fun (more, rest) => (c.toNat :: more, rest) := by
  rw [codePoints]
  · have hfalse : (decide (c = '\\') || decide (c.toNat < 0x20)) = false := by
      rw [Bool.or_eq_false_iff, decide_eq_false_iff_not, decide_eq_false_iff_not]
      exact ⟨hbackslash, Nat.not_lt_of_le hc⟩
    rw [hfalse]
    rfl
  · exact hquote
  · exact fun _ _ _ _ _ h => absurd h hbackslash
  · exact fun _ _ h => absurd h hbackslash

theorem codePoints_escaped (c : Char) (s : Text) : codePoints (escaped c ++ s) =
    (codePoints s).map fun (more, rest) => ((Symbol.char c).units ++ more, rest) := by
  rw [escaped]
  -- The seven characters with escapes of their own.
  iterate 7
    split
    case isTrue h => subst h; rfl
  rename_i hquote hbackslash _ _ _ _ _
  split
  case isTrue hplain =>
    rw [Bool.and_eq_true, decide_eq_true_eq, decide_eq_true_eq] at hplain
    rw [List.singleton_append, codePoints_plain hquote hbackslash hplain.1, Symbol.units,
      if_pos (by omega)]
    rfl
  case isFalse =>
    split
    case isTrue hsmall =>
      rw [codePoints_unitEscape hsmall, Symbol.units, if_pos hsmall]
      rfl
    case isFalse hlarge =>
      have := toNat_lt c
      rw [List.append_assoc, codePoints_unitEscape (by omega), codePoints_unitEscape (by omega),
        Symbol.units, if_neg hlarge]
      cases codePoints s <;> rfl

theorem codePoints_symbolText (a : Symbol) (s : Text) : codePoints (symbolText a ++ s) =
    (codePoints s).map fun (more, rest) => (a.units ++ more, rest) := by
  cases a with
  | char c => exact codePoints_escaped c s
  | half t => exact codePoints_unitEscape (by have := t.bounds; omega) s

/-- The code units of a string are read from between its quotes. -/
theorem codePoints_string (s : LooseText) (rest : Text) :
    codePoints (s.flatMap symbolText ++ '"' :: rest) = .ok (s.flatMap Symbol.units, rest) := by
  induction s with
  | nil => rfl
  | cons a s ih =>
    rw [List.flatMap_cons, List.append_assoc, codePoints_symbolText, ih]
    rfl

theorem stringBody_string {s : LooseText} (h : s.IsJoined) (rest : Text) :
    stringBody (s.flatMap symbolText ++ '"' :: rest) = .ok (s, rest) := by
  rw [stringBody, codePoints_string, Except.map]
  dsimp only
  rw [LooseText.ofCodePoints_units h]

/-- What is read of a string is joined. -/
theorem isJoined_of_stringBody {s rest : Text} {text : LooseText}
    (h : stringBody s = .ok (text, rest)) : text.IsJoined := by
  rw [stringBody] at h
  cases hread : codePoints s with
  | error fault => rw [hread] at h; cases h
  | ok reading =>
    rw [hread] at h
    cases h
    exact LooseText.isJoined_ofCodePoints _

end Json

end Reckoner
