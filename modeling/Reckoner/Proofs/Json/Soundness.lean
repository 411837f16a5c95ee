import Reckoner.Proofs.Json.RoundTrip

/-! Whatever is read from a text fits into the depth to which values are read, so it can be written
and read again. -/

namespace Reckoner.Json

variable {depth fuel : ℕ} {s rest : Text} {v : Value}

theorem fits_of_named {reading : Value × Text} (h : named.findSome? (fun (name, value) =>
    (Text.after? name s).map fun rest => (value, rest)) = some reading) : Fits depth reading.1 := by
  obtain ⟨⟨name, value⟩, hmem, hafter⟩ := List.exists_of_findSome?_eq_some h
  obtain ⟨rest, -, rfl⟩ := Option.map_eq_some_iff.mp hafter
  simp only [named, List.mem_cons, Prod.mk.injEq, List.not_mem_nil, or_false] at hmem
  rcases hmem with ⟨-, rfl⟩ | ⟨-, rfl⟩ | ⟨-, rfl⟩ | ⟨-, rfl⟩ | ⟨-, rfl⟩ | ⟨-, rfl⟩
  · exact .null
  · exact .boolean true
  · exact .boolean false
  all_goals exact .real _

theorem digits_of_wholePart? {whole : Text} (h : wholePart? s = some (whole, rest)) :
    whole ≠ [] ∧ ∀ c ∈ whole, c.isDigit = true := by
  rw [wholePart?.eq_def] at h
  split at h
  · obtain ⟨rfl, -⟩ := Prod.mk.inj (Option.some.inj h)
    exact ⟨by simp, List.forall_mem_singleton.mpr rfl⟩
  · split at h
    case isTrue => cases h
    case isFalse hne =>
      obtain ⟨rfl, -⟩ := Prod.mk.inj (Option.some.inj h)
      exact ⟨by simpa [spanDigits] using hne, fun c hc => List.all_eq_true.mp List.all_takeWhile c hc⟩

theorem fits_of_unsigned {negative : Bool} (h : unsigned negative s = .ok (v, rest)) :
    Fits depth v := by
  rw [unsigned] at h
  cases hwhole : wholePart? s with
  | none => rw [hwhole] at h; cases h
  | some parts =>
    obtain ⟨whole, s⟩ := parts
    obtain ⟨hne, hdigits⟩ := digits_of_wholePart? hwhole
    rw [hwhole] at h
    dsimp only at h
    split at h
    case h_1 =>
      obtain ⟨rfl, -⟩ := Prod.mk.inj (Except.ok.inj h)
      exact .real _
    case h_2 =>
      split at h
      case isTrue =>
        obtain ⟨rfl, -⟩ := Prod.mk.inj (Except.ok.inj h)
        exact .real _
      case isFalse =>
        split at h
        case isTrue => cases h
        case isFalse hlength =>
          obtain ⟨rfl, -⟩ := Prod.mk.inj (Except.ok.inj h)
          have hnatAbs : (if negative then -(digitsValue whole : ℤ) else digitsValue whole).natAbs =
              digitsValue whole := by
            split <;> omega
          refine .integer ?_
          rw [hnatAbs]
          exact (length_ofNat_digitsValue hne hdigits).trans (Nat.le_of_not_lt hlength)

theorem fits_of_scalar (h : scalar s = .ok (v, rest)) : Fits depth v := by
  rw [scalar] at h
  split at h
  case h_1 reading hnamed =>
    obtain rfl := Except.ok.inj h
    exact fits_of_named hnamed
  case h_2 =>
    rw [number.eq_def] at h
    split at h
    · exact fits_of_unsigned h
    · exact fits_of_unsigned h

/-- A value that is read fits, and so do the items of an array and the members of an object. -/
theorem fits_of_readers (fuel : ℕ) :
    (∀ depth s v rest, valueFrom fuel depth s = .ok (v, rest) → Fits depth v) ∧
      (∀ depth s items rest, itemsFrom fuel depth s = .ok (items, rest) →
        ∀ v ∈ items, Fits depth v) ∧
      ∀ depth s members rest, membersFrom fuel depth s = .ok (members, rest) →
        ∀ m ∈ members, m.1.IsJoined ∧ Fits depth m.2 := by
  -- The three readers call each other with one unit of fuel less, so one induction serves them all.
  induction fuel with
  | zero =>
    refine ⟨?_, ?_, ?_⟩
    all_goals
      intro depth s result rest h
      cases h
  | succ fuel ih =>
    obtain ⟨hvalue, hitems, hmembers⟩ := ih
    refine ⟨?_, ?_, ?_⟩
    · intro depth s v rest h
      rw [valueFrom.eq_def] at h
      dsimp only at h
      split at h
      case h_1 =>
        obtain ⟨⟨text, t⟩, hbody, heq⟩ := map_eq_ok h
        obtain ⟨rfl, -⟩ := Prod.mk.inj heq
        exact .text (isJoined_of_stringBody hbody)
      case h_2 => cases h
      case h_3 => cases h
      case h_4 =>
        split at h
        case h_1 =>
          obtain ⟨rfl, -⟩ := Prod.mk.inj (Except.ok.inj h)
          exact .array (by simp)
        case h_2 =>
          obtain ⟨⟨items, t⟩, hread, heq⟩ := map_eq_ok h
          obtain ⟨rfl, -⟩ := Prod.mk.inj heq
          exact .array (hitems _ _ _ _ hread)
      case h_5 =>
        split at h
        case h_1 =>
          obtain ⟨rfl, -⟩ := Prod.mk.inj (Except.ok.inj h)
          exact .object (by simp) (by simp)
        case h_2 =>
          obtain ⟨⟨members, t⟩, hread, heq⟩ := map_eq_ok h
          obtain ⟨rfl, -⟩ := Prod.mk.inj heq
          have := hmembers _ _ _ _ hread
          exact .object (fun m hm => (this m hm).1) fun m hm => (this m hm).2
      case h_6 => exact fits_of_scalar h
    · intro depth s items rest h
      rw [itemsFrom] at h
      obtain ⟨⟨v, t⟩, hv, h⟩ := bind_eq_ok h
      dsimp only at h
      split at h
      case h_1 =>
        obtain ⟨rfl, -⟩ := Prod.mk.inj (Except.ok.inj h)
        exact List.forall_mem_singleton.mpr (hvalue _ _ _ _ hv)
      case h_2 =>
        obtain ⟨⟨more, u⟩, hmore, heq⟩ := map_eq_ok h
        obtain ⟨rfl, -⟩ := Prod.mk.inj heq
        exact List.forall_mem_cons.mpr ⟨hvalue _ _ _ _ hv, hitems _ _ _ _ hmore⟩
      case h_3 => cases h
    · intro depth s members rest h
      rw [membersFrom.eq_def] at h
      split at h
      case h_1 => cases h
      case h_3 => cases h
      case h_2 =>
        rename_i depth _ _ _ fuel' _ hfuel
        obtain rfl : fuel = fuel' := Nat.succ.inj hfuel
        obtain ⟨⟨key, t⟩, hkey, h⟩ := bind_eq_ok h
        dsimp only at h
        split at h
        case h_2 => cases h
        case h_1 =>
          obtain ⟨⟨v, u⟩, hv, h⟩ := bind_eq_ok h
          have hmember : key.IsJoined ∧ Fits depth v :=
            ⟨isJoined_of_stringBody hkey, hvalue _ _ _ _ hv⟩
          dsimp only at h
          split at h
          case h_1 =>
            obtain ⟨rfl, -⟩ := Prod.mk.inj (Except.ok.inj h)
            exact List.forall_mem_singleton.mpr hmember
          case h_2 =>
            obtain ⟨⟨more, w⟩, hmore, heq⟩ := map_eq_ok h
            obtain ⟨rfl, -⟩ := Prod.mk.inj heq
            exact List.forall_mem_cons.mpr ⟨hmember, hmembers _ _ _ _ hmore⟩
          case h_3 => cases h

/-- Whatever is read fits. -/
theorem fits_of_read (h : Value.read s = .ok v) : Fits maxDepth v := by
  obtain ⟨⟨value, rest⟩, hread, h⟩ := bind_eq_ok h
  dsimp only at h
  split at h
  case isTrue =>
    obtain rfl := Except.ok.inj h
    exact (fits_of_readers _).1 _ _ _ _ hread
  case isFalse => cases h

end Reckoner.Json
