import Reckoner.Proofs.Expression.Accepted
import Reckoner.Proofs.Number.Positional
import Reckoner.Proofs.Number.Shortest
import Reckoner.Proofs.Number.Significant

/-! The text of a result is an expression again, whose value is shown as the same text.  A literal
with a sign before it or not has the double that its number rounds to as its value; what is shown
of a double is such a literal, of the double itself if it is a whole number below the limit and of
its significant digits if not. -/

namespace Reckoner

/-! ### Literals -/

namespace IsLiteral

variable {body : Text}

theorem ne_nil (h : IsLiteral body) : body ≠ [] := by
  cases h with
  | whole hne => exact hne
  | pointed => simp

theorem isNumeral (h : IsLiteral body) : ∀ c ∈ body, isNumeral c = true := by
  have hdigit {c : Char} (hc : c.isDigit = true) : Reckoner.isNumeral c = true := by
    rw [Reckoner.isNumeral, hc, Bool.true_or]
  cases h with
  | whole hne h => exact fun c hc => hdigit (h c hc)
  | pointed hne h hfraction =>
    intro c hc
    rcases List.mem_append.mp hc with hc | hc
    · exact hdigit (h c hc)
    · rcases List.mem_cons.mp hc with rfl | hc
      · rfl
      · exact hdigit (hfraction c hc)

theorem startsNumber {c : Char} {run : Text} (h : IsLiteral (c :: run)) :
    startsNumber c run = true := by
  have hc : c.isDigit = true := by
    generalize hbody : c :: run = body at h
    cases h with
    | whole hne h => exact h c (hbody ▸ List.mem_cons_self)
    | @pointed digits fraction hne h =>
      cases digits with
      | nil => exact absurd rfl hne
      | cons d digits =>
        obtain ⟨rfl, -⟩ := List.cons.inj hbody
        exact h c List.mem_cons_self
  rw [Reckoner.startsNumber, hc, Bool.true_or]

theorem count_point (h : IsLiteral body) : body.count '.' ≤ 1 := by
  have hzero {digits : Text} (h : ∀ c ∈ digits, c.isDigit = true) : digits.count '.' = 0 :=
    List.count_eq_zero.mpr fun hc => absurd (h _ hc) (by decide)
  cases h with
  | whole hne h => rw [hzero h]; decide
  | pointed hne h hfraction =>
    rw [List.count_append, List.count_cons_self, hzero h, hzero hfraction]

theorem ofNat (n : ℕ) : IsLiteral (Text.ofNat n) :=
  .whole (ofNat_ne_nil n) fun _ hc => isDigit_of_mem_ofNat hc

section Scanning

variable {position : ℕ} {rest : Text} {tokens : List Token}
  (h : IsLiteral body) (hend : ∀ d ∈ rest.head?, Reckoner.isNumeral d = false)

include h hend

/-- A literal is one number, if no part of a number follows it. -/
theorem scanned_append (hrest : Scanned (position + body.length) rest tokens) :
    Scanned position (body ++ rest) (⟨.number (literalValue body), position⟩ :: tokens) := by
  obtain ⟨c, run, rfl⟩ := List.exists_cons_of_ne_nil h.ne_nil
  exact .number (startsNumber_append h.startsNumber rest) (fun d hd => h.isNumeral d (.tail _ hd))
    hend h.count_point hrest

theorem of_scanned_append (hs : Scanned position (body ++ rest) tokens) :
    ∃ tokens', tokens = ⟨.number (literalValue body), position⟩ :: tokens' ∧
      Scanned (position + body.length) rest tokens' := by
  obtain ⟨c, run, rfl⟩ := List.exists_cons_of_ne_nil h.ne_nil
  obtain ⟨htake, hdrop⟩ := takeWhile_run (fun d hd => h.isNumeral d (.tail _ hd)) hend
  rw [← scanFrom_eq_ok, List.cons_append, scanFrom_number (startsNumber_append h.startsNumber rest),
    htake, hdrop, if_neg (Nat.not_lt.mpr h.count_point)] at hs
  obtain ⟨tokens', hrest, rfl⟩ := map_eq_ok hs
  exact ⟨tokens', rfl, scanned_of_scanFrom hrest⟩

end Scanning

theorem scanned (h : IsLiteral body) (position : ℕ) :
    Scanned position body [⟨.number (literalValue body), position⟩] := by
  have hscanned : Scanned position (body ++ []) [⟨.number (literalValue body), position⟩] :=
    h.scanned_append nofun .nil
  rwa [List.append_nil] at hscanned

end IsLiteral

section Display

variable (degrees : Bool) {negative : Bool} {o : ℕ} {body : Text}

theorem normalized_signed (negative : Bool) (h : IsLiteral body) :
    normalized (Double.signText negative ++ body) = Double.signText negative ++ body := by
  have hbody : normalized body = body := by
    have hmap : body.map keypadForm = body :=
      (List.map_congr_left fun c hc => keypadForm_of_isNumeral (h.isNumeral c hc)).trans
        (List.map_id body)
    rw [normalized, hmap]
    exact List.filter_eq_self.mpr fun c hc => by simp [isBlank_of_isNumeral (h.isNumeral c hc)]
  rw [normalized_append, hbody]
  cases negative <;> rfl

/-- The value of a literal with a sign is the double that its number rounds to, with that sign. -/
theorem evaluate_signed (h : IsLiteral body)
    (hread : RoundsTo ((Decimal.ofLiteral body).value * unitsPerOne) o) (ho : o < ordinalCount) :
    evaluate degrees (Double.signText negative ++ body) = .ok (.finite negative o ho) := by
  have hvalue : literalValue body = .finite false o ho := Decimal.toDouble_of_roundsTo hread ho
  rw [evaluate_eq_ok, normalized_signed negative h]
  cases negative with
  | false =>
    have hscan : scan body = .ok [⟨.number (literalValue body), 0⟩] := (h.scanned 0).scanFrom_eq
    exact ⟨_, _, hscan, rfl, by rw [hvalue]; rfl⟩
  | true =>
    have hscan : scan ('-' :: body) =
        .ok [⟨.operator .sub, 0⟩, ⟨.number (literalValue body), 1⟩] :=
      (Scanned.sign rfl (h.scanned 1)).scanFrom_eq
    exact ⟨_, _, hscan, rfl, by rw [hvalue]; rfl⟩

/-! ### Whole numbers -/

theorem wholeText?_eq_some {value : Double} {text : Text} : wholeText? value = some text ↔
    ∃ n, value.toInt? = some n ∧ n.natAbs < wholeLimit ∧ text = Text.ofInt n := by
  rw [wholeText?]
  cases value.toInt? with
  | none => simp
  | some n =>
    by_cases hn : n.natAbs < wholeLimit
    · simp [hn, eq_comm]
    · simp [hn]

theorem ofInt_signed {negative : Bool} {whole : ℕ} (h : negative = true → whole ≠ 0) :
    Text.ofInt (if negative then -(whole : ℤ) else whole) =
      Double.signText negative ++ Text.ofNat whole := by
  have hnonneg : ¬(whole : ℤ) < 0 := by omega
  rw [ofInt_eq]
  cases negative with
  | false => simp [hnonneg]
  | true => simp [Nat.pos_of_ne_zero (h rfl)]

/-- A whole number that is shown in full has itself as its value, but that zero has no sign. -/
theorem evaluate_whole {ho : o < ordinalCount} {n : ℤ}
    (h : (Double.finite negative o ho).toInt? = some n) :
    ∃ negative', evaluate degrees (Text.ofInt n) = .ok (.finite negative' o ho) ∧
      (Double.finite negative' o ho).toInt? = some n ∧ (negative' = negative ∨ o = 0) := by
  obtain ⟨whole, hwhole⟩ : ∃ whole, whole = unitsOf o / unitsPerOne := ⟨_, rfl⟩
  rw [Double.toInt?] at h
  split at h
  case isFalse => cases h
  case isTrue hmod =>
    rw [← hwhole] at h
    obtain rfl := Option.some.inj h
    have hunits : whole * unitsPerOne = unitsOf o := by
      rw [hwhole]
      exact Nat.div_mul_cancel (Nat.dvd_of_mod_eq_zero hmod)
    have hread : RoundsTo ((Decimal.ofLiteral (Text.ofNat whole)).value * unitsPerOne) o := by
      rw [Decimal.ofLiteral_whole fun c hc => isDigit_of_mem_ofNat hc, digitsValue_ofNat]
      convert RoundsTo.self o using 1
      rw [Decimal.value, zpow_zero, mul_one, ← hunits, Nat.cast_mul]
    have hliteral : IsLiteral (Text.ofNat whole) := .ofNat whole
    have hint (sign : Bool) : (Double.finite sign o ho).toInt? =
        some (if sign then -(whole : ℤ) else whole) := by
      rw [Double.toInt?, if_pos hmod, ← hwhole]
    -- The text of zero has no sign, whichever zero it is.
    rcases Nat.eq_zero_or_pos whole with hzero | hpos
    · have ho0 : o = 0 := by
        rw [hzero, Nat.zero_mul] at hunits
        by_contra hne
        exact absurd hunits (unitsOf_pos.mpr (Nat.pos_of_ne_zero hne)).ne
      have hplain : (if negative then -(whole : ℤ) else whole) = whole := by simp [hzero]
      have heval : evaluate degrees (Double.signText false ++ Text.ofNat whole) =
          .ok (.finite false o ho) := evaluate_signed degrees hliteral hread ho
      rw [hplain]
      exact ⟨false, heval, hint false, .inr ho0⟩
    · refine ⟨negative, ?_, hint negative, .inl rfl⟩
      rw [ofInt_signed fun _ => hpos.ne']
      exact evaluate_signed degrees hliteral hread ho

/-! ### What is shown -/

theorem shown_of_whole {value : Double} {text : Text} (h : wholeText? value = some text) :
    shown value = text := by
  rw [shown, h]

theorem shown_of_rounded {value : Double} (h : wholeText? value = none) :
    shown value = (wholeText? (displayRounded value)).getD (positionalText (displayRounded value)) := by
  rw [shown, h]
  dsimp only
  cases wholeText? (displayRounded value) <;> rfl

/-- A finite result is shown as a literal with a sign or without. -/
theorem exists_literal_shown {value : Double} (h : value.isFinite = true) :
    ∃ negative body, IsLiteral body ∧ shown value = Double.signText negative ++ body := by
  have hwhole {value : Double} {text : Text} (htext : wholeText? value = some text) :
      ∃ negative body, IsLiteral body ∧ text = Double.signText negative ++ body := by
    obtain ⟨n, -, -, rfl⟩ := wholeText?_eq_some.mp htext
    exact ⟨_, _, IsLiteral.ofNat n.natAbs, ofInt_eq n⟩
  cases value with
  | infinite | nan => cases h
  | finite negative o ho =>
    cases htext : wholeText? (.finite negative o ho) with
    | some text => rw [shown_of_whole htext]; exact hwhole htext
    | none =>
      obtain ⟨p, hp, hrounded, -⟩ := displayRounded_finite negative ho
      rw [shown_of_rounded htext, hrounded]
      cases htext' : wholeText? (.finite negative p hp) with
      | some text => exact hwhole htext'
      | none => exact ⟨negative, _, (Decimal.positional_spec (shortest p)).1, rfl⟩

/-- What is shown in full is shown again, and is the same number. -/
theorem evaluate_wholeText {ho : o < ordinalCount} {text : Text}
    (h : wholeText? (.finite negative o ho) = some text) :
    ∃ w, evaluate degrees text = .ok w ∧ w.isFinite = true ∧ wholeText? w = some text ∧
      w.rank? = (Double.finite negative o ho).rank? := by
  obtain ⟨n, hn, hlt, rfl⟩ := wholeText?_eq_some.mp h
  obtain ⟨negative', heval, hint, hsign⟩ := evaluate_whole degrees hn
  refine ⟨_, heval, rfl, wholeText?_eq_some.mpr ⟨n, hint, hlt, rfl⟩, ?_⟩
  rcases hsign with rfl | rfl
  · rfl
  · cases negative <;> cases negative' <;> rfl

/-- The value of the text of a finite result is finite and is shown as the same text; it is the same
number where the result is a whole number below the limit. -/
theorem evaluate_shown (value : Double) (h : value.isFinite = true) :
    ∃ w, evaluate degrees (shown value) = .ok w ∧ w.isFinite = true ∧ shown w = shown value ∧
      ∀ n, value.toInt? = some n → n.natAbs < 10 ^ 21 → w.rank? = value.rank? := by
  cases value with
  | infinite => cases h
  | nan => cases h
  | finite negative o ho =>
    cases hwhole : wholeText? (.finite negative o ho) with
    | some text =>
      obtain ⟨w, heval, hfinite, hw, hrank⟩ := evaluate_wholeText degrees hwhole
      rw [shown_of_whole hwhole]
      exact ⟨w, heval, hfinite, shown_of_whole hw, fun _ _ _ => hrank⟩
    | none =>
      have hnot : ∀ n, (Double.finite negative o ho).toInt? = some n → ¬n.natAbs < 10 ^ 21 := by
        intro n hn hlt
        rw [wholeText?_eq_some.mpr ⟨n, hn, hlt, rfl⟩] at hwhole
        cases hwhole
      obtain ⟨p, hp, hrounded, hread⟩ := displayRounded_finite negative ho
      rw [shown_of_rounded hwhole, hrounded]
      cases hwhole' : wholeText? (.finite negative p hp) with
      | some text =>
        obtain ⟨w, heval, hfinite, hw, -⟩ := evaluate_wholeText degrees hwhole'
        exact ⟨w, heval, hfinite, shown_of_whole hw, fun n hn hlt => absurd hlt (hnot n hn)⟩
      | none =>
        -- The rounded number has no more digits than are shown, so it is not rounded again.
        have hagain : displayRounded (.finite negative p hp) = .finite negative p hp :=
          Decimal.toDouble_of_roundsTo (roundsTo_rounded rounded_digits_le_shown hread) hp
        obtain ⟨hliteral, hvalue⟩ := Decimal.positional_spec (shortest p)
        refine ⟨.finite negative p hp, ?_, rfl, ?_, fun n hn hlt => absurd hlt (hnot n hn)⟩
        · exact evaluate_signed degrees hliteral (by rw [hvalue]; exact shortest_roundsTo p) hp
        · rw [shown_of_rounded hwhole', hagain, hwhole']

theorem evaluate_shown_subnormal : (Double.finite true 202402253308 (by decide)).isFinite = true ∧
    ∃ w, evaluate true (shown (.finite true 202402253308 (by decide))) = .ok w ∧
      w.isFinite = true ∧ shown w = shown (.finite true 202402253308 (by decide)) ∧
      ∀ n, (Double.finite true 202402253308 (by decide)).toInt? = some n → n.natAbs < 10 ^ 21 →
        w.rank? = (Double.finite true 202402253308 (by decide)).rank? :=
  ⟨rfl, evaluate_shown true _ rfl⟩

end Display

end Reckoner
