import Mathlib.Data.List.Forall2
import Reckoner.Phrase.Spoken
import Reckoner.Proofs.Text.Lines
import Reckoner.Proofs.Text.Unspaced

/-! What readers find and what substitution does with it.  A reader that finds something has read a
part of the text; whether its replacement has more closing parentheses than that part decides
whether the whole substitution has more of them. -/

namespace Reckoner

section Reading

variable {s t rest word : Text} {read : Reader} {before : Option Char}

/-! ### Words -/

theorem afterWord?_eq_some : s.afterWord? word = some rest ↔
    ∃ w, s = w ++ rest ∧ List.Forall₂ (fun a c => meetsLetter a c = true) word w := by
  induction word generalizing s with
  | nil =>
    have hnil : s.afterWord? [] = some s := by cases s <;> rfl
    rw [hnil]
    constructor
    · rintro ⟨⟩
      exact ⟨[], rfl, .nil⟩
    · rintro ⟨w, rfl, hmeets⟩
      cases hmeets
      rfl
  | cons a word ih =>
    cases s with
    | nil =>
      rw [Text.afterWord?.eq_def]
      constructor
      · rintro ⟨⟩
      · rintro ⟨w, hw, hmeets⟩
        cases hmeets
        cases hw
    | cons c s =>
      rw [Text.afterWord?]
      constructor
      · intro h
        split at h
        case isTrue hc =>
          obtain ⟨w, rfl, hmeets⟩ := ih.mp h
          exact ⟨c :: w, rfl, .cons hc hmeets⟩
        case isFalse => cases h
      · rintro ⟨w, hw, hmeets⟩
        cases hmeets with
        | cons hc hmeets =>
          obtain ⟨rfl, rfl⟩ := List.cons.inj hw
          rw [if_pos hc]
          exact ih.mpr ⟨_, rfl, hmeets⟩

theorem exists_of_mem_forall₂ {α β : Type} {R : α → β → Prop} {as : List α} {bs : List β} {a : α}
    (h : List.Forall₂ R as bs) (ha : a ∈ as) : ∃ b ∈ bs, R a b := by
  induction h with
  | nil => cases ha
  | cons hab _ ih =>
    rcases List.mem_cons.mp ha with rfl | ha
    · exact ⟨_, .head _, hab⟩
    · obtain ⟨b, hb, h⟩ := ih ha
      exact ⟨b, .tail _ hb, h⟩

/-- But for three letters, what counts as a letter is this letter and its capital. -/
theorem eq_of_meetsLetter {a c : Char} (ha : a ∉ "iks".toList) (h : meetsLetter a c = true) :
    c = a ∨ c = a.toUpper := by
  have hnot : a ≠ 'i' ∧ a ≠ 'k' ∧ a ≠ 's' := by simpa using ha
  simp only [meetsLetter, hnot, beq_false_of_ne, Bool.false_and, Bool.or_false, Bool.or_eq_true,
    Bool.and_eq_true, beq_iff_eq, ne_eq, not_false_eq_true] at h
  exact h.imp_right And.right

theorem afterSign?_eq_some {c : Char} : afterSign? c s = some rest ↔ s = c :: rest := by
  cases s with
  | nil => simp [afterSign?]
  | cons d s =>
    rw [afterSign?]
    split
    case isTrue hd => simp [hd]
    case isFalse hd => simp [hd]

/-! ### Parts without parentheses -/

theorem excess_of_blanks {blanks : Text} (h : ∀ c ∈ blanks, isBlank c = true) :
    Text.excess blanks = 0 :=
  Text.excess_eq_zero_of_forall (by decide) h

theorem excess_of_meets {w : Text}
    (hword : word.all (fun a => !meetsLetter a '(' && !meetsLetter a ')') = true)
    (h : List.Forall₂ (fun a c => meetsLetter a c = true) word w) : Text.excess w = 0 := by
  induction h with
  | nil => rfl
  | @cons a c word w hc _ ih =>
    rw [List.all_cons, Bool.and_eq_true] at hword
    obtain ⟨ha, hword⟩ := hword
    have hone : Text.excess [c] = 0 := Text.excess_eq_zero_of_forall (p := meetsLetter a)
      (by simpa using ha) (by simpa using hc)
    rw [Text.excess_cons, hone, ih hword]
    rfl

/-! ### Substitution -/

theorem size_upTo {part replacement : Text} (hs : s = part ++ rest) :
    (Found.upTo replacement s rest).size = part.length := by
  rw [Found.upTo, hs, List.length_append, Nat.add_sub_cancel]

theorem upTo_inj {replacement replacement' rest' : Text} (hrest : rest <:+ s) (hrest' : rest' <:+ s)
    (h : Found.upTo replacement s rest = .upTo replacement' s rest') :
    replacement = replacement' ∧ rest = rest' := by
  obtain ⟨hreplacement, hsize⟩ := Found.mk.inj h
  have := hrest.length_le
  have := hrest'.length_le
  refine ⟨hreplacement, List.IsSuffix.eq_of_length
    (List.suffix_of_suffix_length_le hrest hrest' ?_) ?_⟩
  all_goals omega

theorem take_upTo {part replacement : Text} (hs : s = part ++ rest) :
    s.take (Found.upTo replacement s rest).size = part := by
  rw [size_upTo hs, hs]
  exact List.take_left

theorem exists_of_findsFrom (h : findsFrom read before s = true) :
    ∃ before t, t <:+ s ∧ (read before t).isSome = true := by
  induction s generalizing before with
  | nil => cases h
  | cons c s ih =>
    rw [findsFrom, Bool.or_eq_true] at h
    rcases h with h | h
    · exact ⟨before, c :: s, List.suffix_rfl, h⟩
    · obtain ⟨before, t, ht, hr⟩ := ih h
      exact ⟨before, t, ht.trans (List.suffix_cons c s), hr⟩

/-- A reader that finds nothing from any place on leaves the text alone. -/
theorem substitute_eq_self (h : ∀ before t, t <:+ s → read before t = none) :
    substitute read s = s := by
  refine substituteFrom_eq_self ?_
  cases hf : findsFrom read none s with
  | false => rfl
  | true =>
    obtain ⟨before, t, ht, hr⟩ := exists_of_findsFrom hf
    simp [h before t ht] at hr

theorem findsFrom_of_suffix (hread : ∀ before before', read before = read before')
    (ht : t <:+ s) (hne : t ≠ []) (hr : (read before t).isSome = true) (start : Option Char) :
    findsFrom read start s = true := by
  induction s generalizing start with
  | nil => exact absurd (List.suffix_nil.mp ht) hne
  | cons c s ih =>
    rw [findsFrom, Bool.or_eq_true]
    rcases List.suffix_cons_iff.mp ht with rfl | ht
    · exact .inl (by rw [hread start before]; exact hr)
    · exact .inr (ih ht (some c))

/-- A replacement that opens no more parentheses than it closes, in comparison with what it
replaces. -/
def Reader.Closes (read : Reader) : Prop :=
  ∀ before t found, read before t = some found →
    0 < found.size ∧ Text.excess (t.take found.size) ≤ Text.excess found.replacement

theorem excess_split {c : Char} {size : Nat} (s : Text) (h : 0 < size) :
    Text.excess (c :: s) =
      Text.excess ((c :: s).take size) + Text.excess (s.drop (size - 1)) := by
  obtain ⟨n, rfl⟩ : ∃ n, size = n + 1 := ⟨size - 1, by omega⟩
  rw [← Text.excess_append, List.take_succ_cons, Nat.add_sub_cancel, List.cons_append,
    List.take_append_drop]

theorem excess_substituteFrom_le (h : read.Closes) (skipped : Nat) (before : Option Char)
    (s : Text) :
    Text.excess (s.drop skipped) ≤ Text.excess (substituteFrom read skipped before s) := by
  induction s generalizing skipped before with
  | nil => simp [substituteFrom]
  | cons c s ih =>
    cases skipped with
    | succ skipped => exact ih skipped (some c)
    | zero =>
      rw [substituteFrom.eq_def]
      simp only
      cases hr : read before (c :: s) with
      | none =>
        have := ih 0 (some c)
        rw [List.drop_zero] at this ⊢
        rw [Text.excess_cons, Text.excess_cons c (substituteFrom read 0 (some c) s)]
        omega
      | some found =>
        obtain ⟨hsize, hle⟩ := h before (c :: s) found hr
        have := ih (found.size - 1) (some c)
        rw [List.drop_zero, excess_split s hsize, Text.excess_append]
        omega

theorem excess_substitute_le (h : read.Closes) (s : Text) :
    Text.excess s ≤ Text.excess (substitute read s) :=
  excess_substituteFrom_le h 0 none s

/-- A substitution that finds something closes more parentheses if each replacement does. -/
theorem excess_substituteFrom_lt (h : ∀ before t found, read before t = some found →
    0 < found.size ∧ Text.excess (t.take found.size) < Text.excess found.replacement)
    (hf : findsFrom read before s = true) :
    Text.excess s < Text.excess (substituteFrom read 0 before s) := by
  have hcloses : read.Closes := fun before t found hr =>
    (h before t found hr).imp_right Int.le_of_lt
  induction s generalizing before with
  | nil => cases hf
  | cons c s ih =>
    rw [substituteFrom.eq_def]
    simp only
    cases hr : read before (c :: s) with
    | none =>
      have : Text.excess s < Text.excess (substituteFrom read 0 (some c) s) :=
        ih (by simpa [findsFrom, hr] using hf)
      rw [Text.excess_cons, Text.excess_cons c (substituteFrom read 0 (some c) s)]
      omega
    | some found =>
      obtain ⟨hsize, hlt⟩ := h before (c :: s) found hr
      have := excess_substituteFrom_le hcloses (found.size - 1) (some c) s
      rw [excess_split s hsize, Text.excess_append]
      omega

end Reading

/-! ### Substitution along a text -/

/-- What follows each part of a text that the reader finds, where the first `skipped` characters are
part of what has been found. -/
def behindFrom (read : Reader) (skipped : ℕ) (before : Option Char) : Text → List Text
  | [] => []
  | c :: s =>
    match skipped with
    | skipped + 1 => behindFrom read skipped (some c) s
    | 0 =>
      match read before (c :: s) with
      | some found => (c :: s).drop found.size :: behindFrom read (found.size - 1) (some c) s
      | none => behindFrom read 0 (some c) s

/-- What follows each part of a text that the reader finds, in order. -/
def behind (read : Reader) (s : Text) : List Text := behindFrom read 0 none s

section Substitution

variable {read : Reader} {before : Option Char} {c : Char} {s rest run part : Text}

/-- The last character of a text that stands behind `before`. -/
def lastOr (before : Option Char) (run : Text) : Option Char := run.getLast?.or before

theorem lastOr_cons (before : Option Char) (c : Char) (run : Text) :
    lastOr before (c :: run) = lastOr (some c) run := by
  rw [lastOr, lastOr, List.getLast?_cons]
  cases run.getLast? <;> rfl

/-- The rest of what has been found is skipped. -/
theorem skip_part (read : Reader) (before : Option Char) (part rest : Text) :
    substituteFrom read part.length before (part ++ rest) =
        substituteFrom read 0 (lastOr before part) rest ∧
      behindFrom read part.length before (part ++ rest) =
        behindFrom read 0 (lastOr before part) rest := by
  induction part generalizing before with
  | nil => exact ⟨rfl, rfl⟩
  | cons c part ih =>
    rw [lastOr_cons]
    exact ih (some c)

theorem substituteFrom_found {replacement : Text} (hs : c :: s = part ++ rest) (hpart : part ≠ [])
    (h : read before (c :: s) = some (.upTo replacement (c :: s) rest)) :
    substituteFrom read 0 before (c :: s) =
        replacement ++ substituteFrom read 0 (lastOr before part) rest ∧
      behindFrom read 0 before (c :: s) = rest :: behindFrom read 0 (lastOr before part) rest := by
  obtain ⟨d, part, rfl⟩ := List.exists_cons_of_ne_nil hpart
  rw [List.cons_append] at hs
  obtain ⟨rfl, rfl⟩ := List.cons.inj hs
  obtain ⟨hsubstitute, hbehind⟩ := skip_part read (some c) part rest
  have hsize : (Found.upTo replacement (c :: (part ++ rest)) rest).size = (c :: part).length :=
    size_upTo rfl
  have hdrop : (c :: (part ++ rest)).drop (c :: part).length = rest := List.drop_left
  rw [lastOr_cons, substituteFrom, behindFrom]
  simp only [h, hsize, List.length_cons, Nat.add_sub_cancel, hsubstitute, hbehind]
  exact ⟨rfl, congrArg (· :: _) hdrop⟩

theorem substituteFrom_none (h : read before (c :: s) = none) :
    substituteFrom read 0 before (c :: s) = c :: substituteFrom read 0 (some c) s ∧
      behindFrom read 0 before (c :: s) = behindFrom read 0 (some c) s := by
  rw [substituteFrom, behindFrom]
  simp only [h, and_self]

/-- Characters at which nothing is found are left alone. -/
theorem substituteFrom_run (read : Reader) {p : Option Char → Prop}
    (hrun : ∀ c ∈ run, p (some c) ∧ ∀ before s, p before → read before (c :: s) = none)
    (hbefore : p before) (rest : Text) :
    substituteFrom read 0 before (run ++ rest) =
        run ++ substituteFrom read 0 (lastOr before run) rest ∧
      behindFrom read 0 before (run ++ rest) = behindFrom read 0 (lastOr before run) rest := by
  induction run generalizing before with
  | nil => exact ⟨rfl, rfl⟩
  | cons c run ih =>
    obtain ⟨⟨hc, hnone⟩, hrun⟩ := List.forall_mem_cons.mp hrun
    obtain ⟨hsubstitute, hbehind⟩ := substituteFrom_none (hnone before (run ++ rest) hbefore)
    obtain ⟨hsubstitute', hbehind'⟩ := ih hrun hc
    rw [List.cons_append, hsubstitute, hbehind, hsubstitute', hbehind', lastOr_cons]
    exact ⟨rfl, rfl⟩

/-- A run in which `finder` finds nothing is left alone, if the reader finds nothing where `finder` does
not, whatever follows the run. -/
theorem substituteFrom_unfound {finder : Reader} (h : ∀ before c s, c :: s <:+ run →
    finder before (c :: s) = none → read before (c :: (s ++ rest)) = none)
    (hrun : findsFrom finder before run = false) :
    substituteFrom read 0 before (run ++ rest) =
      run ++ substituteFrom read 0 (lastOr before run) rest := by
  induction run generalizing before with
  | nil => rfl
  | cons c run ih =>
    rw [findsFrom, Bool.or_eq_false_iff, Option.isSome_eq_false_iff, Option.isNone_iff_eq_none] at hrun
    obtain ⟨hc, hrun⟩ := hrun
    have htail := ih (fun before d s hs => h before d s (hs.trans (List.suffix_cons c run))) hrun
    rw [List.cons_append, (substituteFrom_none (h before c run List.suffix_rfl hc)).1, htail,
      lastOr_cons]
    rfl

end Substitution

/-! ### Rewritings -/

/-- What a substitution makes of a text part by part, and what follows each part that is found. -/
inductive Rewrites (read : Reader) : Option Char → Text → Text → List Text → Prop
  | nil {before : Option Char} : Rewrites read before [] [] []
  | keep {before : Option Char} {c : Char} {s out : Text} {rests : List Text}
      (h : read before (c :: s) = none) (more : Rewrites read (some c) s out rests) :
      Rewrites read before (c :: s) (c :: out) rests
  | found {before : Option Char} {part rest replacement out : Text} {rests : List Text}
      (hne : part ≠ [])
      (h : read before (part ++ rest) = some (.upTo replacement (part ++ rest) rest))
      (more : Rewrites read (lastOr before part) rest out rests) :
      Rewrites read before (part ++ rest) (replacement ++ out) (rest :: rests)

/-- What the reader finds is a part of the text at its start. -/
def Reader.Cuts (read : Reader) : Prop :=
  ∀ before s found, read before s = some found → ∃ part rest replacement,
    s = part ++ rest ∧ part ≠ [] ∧ found = .upTo replacement s rest

/-- What the reader puts in place of a part starts with `wall`. -/
def Reader.Marks (read : Reader) (wall : Char) : Prop :=
  ∀ before s found, read before s = some found → found.replacement.head? = some wall

section Rewritings

variable {read : Reader} {before : Option Char} {wall : Char} {s out p : Text} {rests : List Text}

theorem rewrites_substitute (h : read.Cuts) (before : Option Char) (s : Text) :
    Rewrites read before s (substituteFrom read 0 before s) (behindFrom read 0 before s) := by
  induction hlength : s.length using Nat.strong_induction_on generalizing s before with
  | _ length ih =>
  subst hlength
  cases s with
  | nil => exact .nil
  | cons c s =>
    cases hread : read before (c :: s) with
    | none =>
      obtain ⟨hsubstitute, hbehind⟩ := substituteFrom_none hread
      rw [hsubstitute, hbehind]
      exact .keep hread (ih s.length (Nat.lt_succ_self _) _ s rfl)
    | some found =>
      obtain ⟨part, rest, replacement, hs, hne, rfl⟩ := h before (c :: s) found hread
      obtain ⟨hsubstitute, hbehind⟩ := substituteFrom_found hs hne hread
      rw [hsubstitute, hbehind]
      rw [hs] at hread ih ⊢
      refine .found hne hread (ih rest.length ?_ _ rest rfl)
      have := List.length_pos_iff.mpr hne
      rw [List.length_append]
      omega

/-- Where nothing follows what is found, nothing is found. -/
theorem Rewrites.findsFrom_eq_false (h : Rewrites read before s out []) :
    findsFrom read before s = false := by
  generalize hrests : ([] : List Text) = rests at h
  induction h with
  | nil => rfl
  | keep hnone _ ih => rw [findsFrom, hnone, ih hrests]; rfl
  | found => cases hrests

/-- Where something is found, the result starts with the mark of replacements. -/
theorem Rewrites.head?_eq (hmarks : read.Marks wall) (h : Rewrites read before s out rests)
    (hread : (read before s).isSome = true) (hs : s ≠ []) : out.head? = some wall := by
  cases h with
  | nil => exact absurd rfl hs
  | keep hnone =>
    rw [hnone] at hread
    cases hread
  | @found _ part rest replacement out rests _ hfound =>
    obtain ⟨tail, htail⟩ := List.head?_eq_some_iff.mp (hmarks _ _ _ hfound)
    obtain rfl : replacement = wall :: tail := htail
    rfl

/-- A start of the result without the mark of replacements is a start of the text. -/
theorem Rewrites.exists_of_start (hmarks : read.Marks wall) (h : Rewrites read before s out rests)
    (hp : p <+: out) (hwall : wall ∉ p) : ∃ s' out', s = p ++ s' ∧ out = p ++ out' ∧
      Rewrites read (lastOr before p) s' out' rests := by
  induction p generalizing before s out with
  | nil => exact ⟨s, out, rfl, rfl, h⟩
  | cons c p ih =>
    cases h with
    | nil => exact absurd (List.prefix_nil.mp hp) (List.cons_ne_nil _ _)
    | keep _ more =>
      obtain ⟨rfl, htail⟩ := List.cons_prefix_cons.mp hp
      obtain ⟨s', out', rfl, rfl, hrest⟩ := ih more htail fun hc => hwall (.tail _ hc)
      exact ⟨s', out', rfl, rfl, lastOr_cons before c p ▸ hrest⟩
    | @found _ part rest replacement out rests _ hread =>
      obtain ⟨tail, htail⟩ := List.head?_eq_some_iff.mp (hmarks _ _ _ hread)
      obtain rfl : replacement = wall :: tail := htail
      obtain ⟨rfl, -⟩ := List.cons_prefix_cons.mp hp
      exact absurd (.head _) hwall

/-- A character at which nothing is found stays. -/
theorem Rewrites.of_none {c : Char} (h : Rewrites read before (c :: s) out rests)
    (hnone : read before (c :: s) = none) :
    ∃ out', out = c :: out' ∧ Rewrites read (some c) s out' rests := by
  generalize hs : c :: s = t at h
  cases h with
  | nil => cases hs
  | keep _ more =>
    obtain ⟨rfl, rfl⟩ := List.cons.inj hs
    exact ⟨_, rfl, more⟩
  | found _ hread =>
    rw [← hs, hnone] at hread
    cases hread

/-- A start of the text at whose characters nothing is found is a start of the result. -/
theorem Rewrites.exists_of_kept (h : Rewrites read before (p ++ s) out rests)
    (hnone : ∀ c ∈ p, ∀ before s, read before (c :: s) = none) :
    ∃ out', out = p ++ out' ∧ Rewrites read (lastOr before p) s out' rests := by
  induction p generalizing before out with
  | nil => exact ⟨out, rfl, h⟩
  | cons c p ih =>
    obtain ⟨hc, hnone⟩ := List.forall_mem_cons.mp hnone
    obtain ⟨out, rfl, more⟩ := h.of_none (hc before (p ++ s))
    obtain ⟨out, rfl, hrest⟩ := ih more hnone
    exact ⟨out, rfl, lastOr_cons before c p ▸ hrest⟩

end Rewritings

end Reckoner
