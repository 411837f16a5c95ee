import Reckoner.Json.Reader
import Reckoner.Json.Writer
import Reckoner.Proofs.Number.Positional
import Reckoner.Proofs.Number.Shortest
import Reckoner.Text.Integer

/-! Numbers in JSON.  An integer is read from its digits, and a double from its shortest ones, laid
out with an exponent or without, as long as the number does not go on in what follows it. -/

namespace Reckoner.Json

/-- No number goes on in this text. -/
def EndsNumber (rest : Text) : Prop :=
  ∀ c ∈ rest.head?, c.isDigit = false ∧ c ≠ '.' ∧ c ≠ 'e' ∧ c ≠ 'E'

/-- The digits of a whole number, which start with a zero only if they are one zero. -/
structure IsWhole (digits : Text) : Prop where
  ne_nil : digits ≠ []
  isDigit : ∀ c ∈ digits, c.isDigit = true
  zero : digits.head? = some '0' → digits = ['0']

theorem isWhole_ofNat (n : ℕ) : IsWhole (Text.ofNat n) := by
  refine ⟨ofNat_ne_nil n, fun c hc => isDigit_of_mem_ofNat hc, fun h => ?_⟩
  rcases Nat.eq_zero_or_pos n with rfl | hn
  · rfl
  · exact absurd h (head?_ofNat_ne_zero hn)

section Numbers

variable {whole fraction digits rest : Text} {negative : Bool}

/-! ### Parts of a number -/

theorem spanDigits_append (hdigits : ∀ c ∈ digits, c.isDigit = true)
    (hrest : ∀ c ∈ rest.head?, c.isDigit = false) : spanDigits (digits ++ rest) = (digits, rest) := by
  obtain ⟨htake, hdrop⟩ := takeWhile_run hdigits hrest
  rw [spanDigits, htake, hdrop]

theorem wholePart?_append (hwhole : IsWhole whole) (hrest : ∀ c ∈ rest.head?, c.isDigit = false) :
    wholePart? (whole ++ rest) = some (whole, rest) := by
  obtain ⟨c, digits, rfl⟩ := List.exists_cons_of_ne_nil hwhole.ne_nil
  by_cases hc : c = '0'
  · subst hc
    obtain ⟨-, rfl⟩ := List.cons.inj (hwhole.zero rfl)
    rfl
  · rw [wholePart?]
    · rw [spanDigits_append hwhole.isDigit hrest]
      rfl
    · intro s hs
      exact hc (List.cons.inj hs).1

theorem fractionPart_of_endsNumber (hrest : EndsNumber rest) : fractionPart rest = ([], rest) := by
  rw [fractionPart]
  · rintro s rfl
    exact (hrest '.' rfl).2.1 rfl

theorem fractionPart_append (hne : fraction ≠ []) (hfraction : ∀ c ∈ fraction, c.isDigit = true)
    (hrest : ∀ c ∈ rest.head?, c.isDigit = false) :
    fractionPart ('.' :: (fraction ++ rest)) = (fraction, rest) := by
  rw [fractionPart, spanDigits_append hfraction hrest, if_neg]
  simp [hne]

theorem exponentPart?_of_endsNumber (hrest : EndsNumber rest) : exponentPart? rest = none := by
  cases rest with
  | nil => rfl
  | cons c rest =>
    obtain ⟨-, -, hlower, hupper⟩ := hrest c rfl
    simp [exponentPart?, hlower, hupper]

/-- An exponent has a sign. -/
theorem exponentPart?_append {small : Bool} (hne : digits ≠ [])
    (hdigits : ∀ c ∈ digits, c.isDigit = true) (hrest : ∀ c ∈ rest.head?, c.isDigit = false) :
    exponentPart? ('e' :: (if small then '-' else '+') :: (digits ++ rest)) =
      some (if small then -(digitsValue digits : ℤ) else digitsValue digits, rest) := by
  have hspan := spanDigits_append hdigits hrest
  cases small <;> simp [exponentPart?, hspan, hne]

/-! ### Numbers without a sign -/

theorem EndsNumber.isDigit (hrest : EndsNumber rest) : ∀ c ∈ rest.head?, c.isDigit = false :=
  fun c hc => (hrest c hc).1

theorem unsigned_whole (hwhole : IsWhole whole) (hrest : EndsNumber rest) :
    unsigned negative (whole ++ rest) =
      if maxIntegerDigits < whole.length then .error .numeralTooLong
      else .ok (.integer (if negative then -(digitsValue whole : ℤ) else digitsValue whole), rest) := by
  rw [unsigned, wholePart?_append hwhole hrest.isDigit]
  dsimp only
  rw [fractionPart_of_endsNumber hrest]
  dsimp only
  rw [exponentPart?_of_endsNumber hrest]
  dsimp only
  rw [if_neg (by simp)]

theorem unsigned_integer {n : ℕ} (hlength : (Text.ofNat n).length ≤ maxIntegerDigits)
    (hrest : EndsNumber rest) : unsigned negative (Text.ofNat n ++ rest) =
      .ok (.integer (if negative then -(n : ℤ) else n), rest) := by
  rw [unsigned_whole (isWhole_ofNat n) hrest, if_neg (Nat.not_lt_of_le hlength), digitsValue_ofNat]

theorem unsigned_pointed (hwhole : IsWhole whole) (hne : fraction ≠ [])
    (hfraction : ∀ c ∈ fraction, c.isDigit = true) (hrest : EndsNumber rest) :
    unsigned negative (whole ++ '.' :: (fraction ++ rest)) =
      .ok (.real ((Decimal.ofDigits whole fraction 0).toDouble negative), rest) := by
  rw [unsigned, wholePart?_append hwhole (by rintro c ⟨⟩; rfl)]
  dsimp only
  rw [fractionPart_append hne hfraction hrest.isDigit]
  dsimp only
  rw [exponentPart?_of_endsNumber hrest]
  dsimp only
  rw [if_pos (by simp [hne])]

/-- The digits after the point, if there are any, with the point. -/
def pointed (fraction : Text) : Text := if fraction.isEmpty then [] else '.' :: fraction

theorem unsigned_scientific {small : Bool} (hwhole : IsWhole whole)
    (hfraction : ∀ c ∈ fraction, c.isDigit = true) (hne : digits ≠ [])
    (hdigits : ∀ c ∈ digits, c.isDigit = true) (hrest : ∀ c ∈ rest.head?, c.isDigit = false) :
    unsigned negative
        (whole ++ (pointed fraction ++ 'e' :: (if small then '-' else '+') :: (digits ++ rest))) =
      .ok (.real ((Decimal.ofDigits whole fraction
        (if small then -(digitsValue digits : ℤ) else digitsValue digits)).toDouble negative),
        rest) := by
  have hfractionPart : fractionPart
      (pointed fraction ++ 'e' :: (if small then '-' else '+') :: (digits ++ rest)) =
        (fraction, 'e' :: (if small then '-' else '+') :: (digits ++ rest)) := by
    rw [pointed]
    cases fraction with
    | nil => rfl
    | cons c fraction => exact fractionPart_append (by simp) hfraction (by rintro c ⟨⟩; rfl)
  rw [unsigned, wholePart?_append hwhole]
  · dsimp only
    rw [hfractionPart]
    dsimp only
    rw [exponentPart?_append hne hdigits hrest]
  · rw [pointed]
    cases fraction with
    | nil => rintro c ⟨⟩; rfl
    | cons => rintro c ⟨⟩; rfl

/-! ### Doubles -/

/-- The digits of a whole number with zeros after them. -/
theorem isWhole_append_zeros {n k : ℕ} (h : n = 0 → k = 0) :
    IsWhole (Text.ofNat n ++ List.replicate k '0') := by
  rcases Nat.eq_zero_or_pos n with hzero | hpos
  · rw [h hzero, List.replicate_zero, List.append_nil]
    exact isWhole_ofNat n
  · rw [← ofNat_mul_pow hpos]
    exact isWhole_ofNat _

/-- A decimal with a point is read as its number. -/
theorem exists_withPoint (n k : ℕ) : ∃ whole fraction,
    Decimal.withPoint (Text.ofNat n) (k + 1) = whole ++ '.' :: fraction ∧ IsWhole whole ∧
      fraction ≠ [] ∧ (∀ c ∈ fraction, c.isDigit = true) ∧
      Decimal.ofDigits whole fraction 0 = ⟨n, .negSucc k⟩ := by
  obtain ⟨fraction, htext, hlength, hfraction, -, hvalue⟩ := withPoint_ofNat n k
  refine ⟨_, fraction, htext, isWhole_ofNat _, ?_, hfraction, ?_⟩
  · rintro rfl
    cases hlength
  · rw [Decimal.ofDigits, hvalue, hlength, Int.zero_sub]
    rfl

/-- A decimal with an exponent is read as it is. -/
theorem exists_scientific (decimal : Decimal) : ∃ whole fraction digits, ∃ small : Bool,
    decimal.scientific =
        whole ++ (pointed fraction ++ 'e' :: (if small then '-' else '+') :: digits) ∧
      IsWhole whole ∧ (∀ c ∈ fraction, c.isDigit = true) ∧ digits ≠ [] ∧
      (∀ c ∈ digits, c.isDigit = true) ∧ Decimal.ofDigits whole fraction
        (if small then -(digitsValue digits : ℤ) else digitsValue digits) = decimal := by
  obtain ⟨c, digits, hdigits⟩ := List.exists_cons_of_ne_nil (ofNat_ne_nil decimal.digits)
  obtain ⟨exponent, hexponent⟩ : ∃ exponent, exponent = decimal.exponent + (digits.length : ℤ) :=
    ⟨_, rfl⟩
  have hisDigit : ∀ d ∈ c :: digits, d.isDigit = true := by
    rw [← hdigits]
    exact fun d hd => isDigit_of_mem_ofNat hd
  refine ⟨[c], digits, List.replicate (2 - (Text.ofNat exponent.natAbs).length) '0' ++
    Text.ofNat exponent.natAbs, decide (exponent < 0), ?_, ?_, ?_, ?_, ?_, ?_⟩
  · have hfirst : decimal.exponent + ((c :: digits).length - 1 : ℤ) = exponent := by
      rw [hexponent, List.length_cons]
      omega
    rw [Decimal.scientific, hdigits, hfirst, pointed]
    cases digits <;> simp
  · refine ⟨by simp, fun d hd => hisDigit d ?_, fun h => ?_⟩
    · exact List.mem_cons.mpr (.inl (List.mem_singleton.mp hd))
    · obtain rfl := Option.some.inj h
      rfl
  · exact fun d hd => hisDigit d (.tail _ hd)
  · simp [ofNat_ne_nil]
  · intro d hd
    rcases List.mem_append.mp hd with hd | hd
    · obtain ⟨-, rfl⟩ := List.mem_replicate.mp hd
      rfl
    · exact isDigit_of_mem_ofNat hd
  · rw [digitsValue_zeros_append, digitsValue_ofNat, Decimal.ofDigits, List.singleton_append,
      ← hdigits, digitsValue_ofNat]
    congr 1
    simp only [decide_eq_true_eq]
    split <;> omega

/-- The text of a decimal in the plain layout is read as its number. -/
theorem unsigned_write (negative : Bool) {decimal : Decimal} (hzero : decimal.digits = 0 → decimal.exponent = 0)
    (hrest : EndsNumber rest) : ∃ d : Decimal, d.value = decimal.value ∧
      unsigned negative (Layout.plain.write decimal ++ rest) =
        .ok (.real (d.toDouble negative), rest) := by
  rw [Layout.write]
  split
  case isTrue =>
    obtain ⟨digits, exponent⟩ := decimal
    cases exponent with
    | ofNat k =>
      have hwhole : IsWhole (Text.ofNat digits ++ List.replicate k '0') :=
        isWhole_append_zeros fun h => Int.ofNat_eq_zero.mp (hzero h)
      have hfraction : ∀ c ∈ List.replicate 1 '0', c.isDigit = true :=
        List.forall_mem_singleton.mpr rfl
      refine ⟨Decimal.ofDigits (Text.ofNat digits ++ List.replicate k '0') (List.replicate 1 '0') 0,
        ?_, ?_⟩
      · rw [Decimal.ofDigits, digitsValue_append_zeros, digitsValue_append_zeros, digitsValue_ofNat]
        simp [Decimal.value]
      · rw [← unsigned_pointed hwhole (by simp) hfraction hrest, Decimal.positional]
        simp
    | negSucc k =>
      obtain ⟨whole, fraction, htext, hwhole, hne, hfraction, hvalue⟩ := exists_withPoint digits k
      refine ⟨_, congrArg Decimal.value hvalue, ?_⟩
      rw [← unsigned_pointed hwhole hne hfraction hrest, Decimal.positional]
      dsimp only
      rw [htext]
      simp
  case isFalse =>
    obtain ⟨whole, fraction, digits, small, htext, hwhole, hfraction, hne, hdigits, hvalue⟩ :=
      exists_scientific decimal
    refine ⟨_, congrArg Decimal.value hvalue, ?_⟩
    rw [← unsigned_scientific hwhole hfraction hne hdigits hrest.isDigit, htext]
    simp

/-! ### Scalars -/

/-- A text that starts with a digit, after a minus sign or not, starts with no name. -/
theorem scalar_eq_number {c : Char} {s : Text} (h : c.isDigit = true ∨
    c = '-' ∧ ∃ d, s.head? = some d ∧ d.isDigit = true) : scalar (c :: s) = number (c :: s) := by
  rw [scalar, List.findSome?_eq_none_iff.mpr ?_]
  have hne {a d : Char} (hd : d.isDigit = true) (ha : a.isDigit = false) : ¬a = d := by
    rintro rfl
    rw [hd] at ha
    cases ha
  rcases h with hc | ⟨rfl, d, hs, hd⟩
  · have h := fun a => hne (a := a) hc
    simp [named, Text.after?, h 'n', h 't', h 'f', h 'N', h 'I', h '-']
  · have h := fun a => hne (a := a) hd
    cases s with
    | nil => cases hs
    | cons e s =>
      obtain rfl := Option.some.inj hs
      simp [named, Text.after?, h 'I']

theorem head?_append_isDigit {s rest : Text} (hne : s ≠ []) (hs : ∀ c ∈ s, c.isDigit = true) :
    ∃ c t, s ++ rest = c :: t ∧ c.isDigit = true := by
  obtain ⟨c, t, rfl⟩ := List.exists_cons_of_ne_nil hne
  exact ⟨c, t ++ rest, rfl, hs c List.mem_cons_self⟩

/-- A text that starts with a digit is a number, and with a minus sign before it too. -/
theorem scalar_signed {s : Text} (hs : ∃ c t, s = c :: t ∧ c.isDigit = true) :
    scalar (Double.signText negative ++ s) = unsigned negative s := by
  obtain ⟨c, t, rfl, hc⟩ := hs
  cases negative with
  | false =>
    refine (scalar_eq_number (.inl hc)).trans ?_
    rw [number]
    rintro s h
    obtain ⟨rfl, -⟩ := List.cons.inj h
    cases hc
  | true => exact scalar_eq_number (.inr ⟨rfl, c, rfl, hc⟩)

theorem scalar_ofInt_of_long {n : ℤ} (hlength : maxIntegerDigits < (Text.ofNat n.natAbs).length)
    (hrest : EndsNumber rest) : scalar (Text.ofInt n ++ rest) = .error .numeralTooLong := by
  rw [ofInt_eq, List.append_assoc, scalar_signed (head?_append_isDigit (ofNat_ne_nil _)
    fun c hc => isDigit_of_mem_ofNat hc), unsigned_whole (isWhole_ofNat _) hrest, if_pos hlength]

/-- An integer is read as it was written, unless it has too many digits. -/
theorem scalar_ofInt {n : ℤ} (hlength : (Text.ofNat n.natAbs).length ≤ maxIntegerDigits)
    (hrest : EndsNumber rest) : scalar (Text.ofInt n ++ rest) = .ok (.integer n, rest) := by
  rw [ofInt_eq, List.append_assoc, scalar_signed (head?_append_isDigit (ofNat_ne_nil _)
    fun c hc => isDigit_of_mem_ofNat hc), unsigned_integer hlength hrest]
  simp only [decide_eq_true_eq, Except.ok.injEq, Prod.mk.injEq, Value.integer.injEq, and_true]
  split <;> omega

theorem exists_digit_of_unsigned {s : Text} {reading : Value × Text}
    (h : unsigned negative s = .ok reading) : ∃ c t, s = c :: t ∧ c.isDigit = true := by
  cases s with
  | nil => cases h
  | cons c t =>
    refine ⟨c, t, rfl, ?_⟩
    by_contra hc
    have hwhole : wholePart? (c :: t) = none := by
      rw [wholePart?]
      · simp [spanDigits, hc]
      · rintro s hs
        obtain ⟨rfl, -⟩ := List.cons.inj hs
        exact hc rfl
    rw [unsigned, hwhole] at h
    cases h

/-- A double is read as it was written. -/
theorem scalar_realText (value : Double) (hrest : EndsNumber rest) :
    scalar (realText value ++ rest) = .ok (.real value, rest) := by
  cases value with
  | nan => rfl
  | infinite negative => cases negative <;> rfl
  | finite negative o ho =>
    have hzero : (shortest o).digits = 0 → (shortest o).exponent = 0 := shortest_exponent_eq_zero
    obtain ⟨d, hvalue, hread⟩ := unsigned_write negative hzero hrest
    have htext : realText (.finite negative o ho) =
        Double.signText negative ++ Layout.plain.write (shortest o) := rfl
    rw [htext, List.append_assoc, scalar_signed (exists_digit_of_unsigned hread), hread,
      Decimal.toDouble_of_roundsTo (hvalue ▸ shortest_roundsTo o) ho]

end Numbers

end Reckoner.Json
