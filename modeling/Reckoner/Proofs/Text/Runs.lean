import Reckoner.Text.Basic

/-! Runs of characters at the start of a text, and the digits of a natural number, which are such a
run and start with a zero only if they are one zero. -/

namespace Reckoner

section Runs

variable {p : Char → Bool} {run rest : Text}

/-- A run of characters that satisfy `p` at the start of a text that goes on with none. -/
theorem takeWhile_run (hrun : ∀ d ∈ run, p d = true) (hend : ∀ d ∈ rest.head?, p d = false) :
    (run ++ rest).takeWhile p = run ∧ (run ++ rest).dropWhile p = rest := by
  rw [List.takeWhile_append_of_pos hrun, List.dropWhile_append_of_pos hrun]
  cases rest with
  | nil => simp
  | cons d rest =>
    have hd : ¬p d = true := by simp [hend d rfl]
    rw [List.takeWhile_cons_of_neg hd, List.dropWhile_cons_of_neg hd, List.append_nil]
    exact ⟨rfl, rfl⟩

theorem head?_dropWhile_eq_false : ∀ d ∈ (rest.dropWhile p).head?, p d = false := by
  intro d hd
  have := List.head?_dropWhile_not p rest
  rw [Option.mem_def.mp hd] at this
  simpa using this

/-- A text is cut in one way only into a run of characters that satisfy `p` and a rest that starts
with none. -/
theorem run_unique {p : Char → Bool} {run' rest' : Text} (h : run ++ rest = run' ++ rest')
    (hrun : ∀ d ∈ run, p d = true) (hend : ∀ d ∈ rest.head?, p d = false)
    (hrun' : ∀ d ∈ run', p d = true) (hend' : ∀ d ∈ rest'.head?, p d = false) :
    run = run' ∧ rest = rest' := by
  obtain ⟨htake, hdrop⟩ := takeWhile_run hrun hend
  obtain ⟨htake', hdrop'⟩ := takeWhile_run hrun' hend'
  rw [h] at htake hdrop
  exact ⟨htake.symm.trans htake', hdrop.symm.trans hdrop'⟩

end Runs

section Digits

variable {n : Nat}

theorem toNat_of_isDigit {c : Char} (h : c.isDigit = true) : 48 ≤ c.toNat ∧ c.toNat ≤ 57 := by
  obtain ⟨hfirst, hlast⟩ := Bool.and_eq_true_iff.mp h
  exact ⟨UInt32.le_iff_toNat_le.mp (of_decide_eq_true hfirst),
    UInt32.le_iff_toNat_le.mp (of_decide_eq_true hlast)⟩

theorem ofNat_ne_nil (n : Nat) : Text.ofNat n ≠ [] := Nat.toDigits_ne_nil

theorem isDigit_of_mem_ofNat {c : Char} (h : c ∈ Text.ofNat n) : c.isDigit = true :=
  Nat.isDigit_of_mem_toDigits (by decide) (by decide) h

theorem digitChar_ne_zero : ∀ d < 10, 0 < d → Nat.digitChar d ≠ '0' := by decide

/-- A positive number has no leading zero. -/
theorem head?_ofNat_ne_zero (h : 0 < n) : (Text.ofNat n).head? ≠ some '0' := by
  induction n using Nat.strongRecOn with
  | ind n ih =>
    rw [Text.ofNat, Nat.toDigits_eq_if (by decide)]
    split
    case isTrue hlt => simpa using digitChar_ne_zero n hlt h
    case isFalse hge =>
      obtain ⟨c, digits, hdigits⟩ := List.exists_cons_of_ne_nil (ofNat_ne_nil (n / 10))
      have hhead := ih (n / 10) (by omega) (by omega)
      rw [Text.ofNat] at hdigits hhead
      rw [hdigits] at hhead ⊢
      exact hhead

end Digits

end Reckoner
