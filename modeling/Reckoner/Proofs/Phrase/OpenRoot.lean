import Reckoner.Proofs.Expression.Scanning
import Reckoner.Proofs.Phrase.Rewriting

/-! Square roots that the rewriting takes to be open: those in whose parenthesis a number stands
first and something else than the end follows it.  `HasOpenRoot` says so of a text, and
`finds_openRoot` that the reader finds just these.  To close them adds a parenthesis each time, and
neither white space at the ends of a text nor its case matters to them. -/

namespace Reckoner

/-- Digits, with a point and more digits after them or not. -/
def IsNumber (n : Text) : Prop :=
  ∃ whole, whole ≠ [] ∧ (∀ c ∈ whole, isDecimalDigit c = true) ∧
    (n = whole ∨ ∃ fraction, fraction ≠ [] ∧ (∀ c ∈ fraction, isDecimalDigit c = true) ∧
      n = whole ++ '.' :: fraction)

/-- What follows a number if it neither goes on with the number nor closes a parenthesis. -/
structure LeavesOpen (rest : Text) : Prop where
  number : ∀ c ∈ rest.head?, isDecimalDigit c = false ∧ c ≠ '.'
  closing : rest.skipBlanks.head? ≠ some ')'

/-- The text starts with a square root, in any case, and a number in its parenthesis that is not all
that stands there. -/
def OpensRoot (t : Text) : Prop :=
  ∃ word blanks n rest, t = word ++ '(' :: (blanks ++ (n ++ rest)) ∧
    List.Forall₂ (fun a c => meetsLetter a c = true) "sqrt".toList word ∧
    (∀ c ∈ blanks, isBlank c = true) ∧ IsNumber n ∧ LeavesOpen rest

/-- A square root with such a number stands somewhere in the text. -/
def HasOpenRoot (s : Text) : Prop := ∃ t, t <:+ s ∧ OpensRoot t

/-! ### Numbers -/

section Numbers

variable {s n rest : Text}

theorem isBlank_of_isDecimalDigit {c : Char} (h : isDecimalDigit c = true) : isBlank c = false := by
  rw [Bool.eq_false_iff]
  intro hb
  rw [isDecimalDigit_of_isPlain (isPlain_of_isBlank hb)] at h
  rw [isBlank_of_isAlphanum (isAlphanum_of_isDigit h)] at hb
  cases hb

theorem IsNumber.exists_cons (h : IsNumber n) : ∃ c m, n = c :: m ∧ isDecimalDigit c = true := by
  obtain ⟨whole, hne, hwhole, hn⟩ := h
  cases whole with
  | nil => exact absurd rfl hne
  | cons c whole =>
    have hc := hwhole c (.head _)
    rcases hn with rfl | ⟨fraction, -, -, rfl⟩
    · exact ⟨c, whole, rfl, hc⟩
    · exact ⟨c, whole ++ '.' :: fraction, rfl, hc⟩

theorem IsNumber.getLast (h : IsNumber n) :
    ∃ m c, n = m ++ [c] ∧ isDecimalDigit c = true := by
  obtain ⟨whole, hne, hwhole, hn⟩ := h
  rcases hn with rfl | ⟨fraction, hf, hfraction, rfl⟩
  · exact ⟨n.dropLast, n.getLast hne, (List.dropLast_append_getLast hne).symm,
      hwhole _ (List.getLast_mem hne)⟩
  · refine ⟨whole ++ '.' :: fraction.dropLast, fraction.getLast hf, ?_,
      hfraction _ (List.getLast_mem hf)⟩
    rw [List.append_assoc, List.cons_append, List.dropLast_append_getLast hf]

theorem IsNumber.excess_eq_zero (h : IsNumber n) : Text.excess n = 0 := by
  have hdigits : ∀ digits : Text, (∀ c ∈ digits, isDecimalDigit c = true) →
      Text.excess digits = 0 := fun digits hd => Text.excess_eq_zero_of_forall (by decide) hd
  obtain ⟨whole, -, hwhole, rfl | ⟨fraction, -, hfraction, rfl⟩⟩ := h
  · exact hdigits n hwhole
  · rw [Text.excess_append, Text.excess_cons, hdigits whole hwhole, hdigits fraction hfraction]
    rfl

theorem number?_eq_some (h : number? s = some (n, rest)) : s = n ++ rest ∧ IsNumber n := by
  have hsplit := List.takeWhile_append_dropWhile (p := isDecimalDigit) (l := s)
  have hwhole : ∀ c ∈ s.takeWhile isDecimalDigit, isDecimalDigit c = true :=
    fun c hc => List.mem_takeWhile_imp hc
  rw [number?] at h
  simp only at h
  split at h
  case isTrue => cases h
  case isFalse hne =>
    rw [List.isEmpty_iff] at hne
    split at h
    case h_1 more hmore =>
      split at h
      case isTrue =>
        cases h
        exact ⟨hsplit.symm, _, hne, hwhole, .inl rfl⟩
      case isFalse hf =>
        rw [List.isEmpty_iff] at hf
        cases h
        refine ⟨?_, _, hne, hwhole, .inr ⟨_, hf, fun c hc => List.mem_takeWhile_imp hc, rfl⟩⟩
        rw [List.append_assoc, List.cons_append, List.takeWhile_append_dropWhile, ← hmore, hsplit]
    case h_2 =>
      cases h
      exact ⟨hsplit.symm, _, hne, hwhole, .inl rfl⟩

theorem number?_append (hn : IsNumber n)
    (hr : ∀ c ∈ rest.head?, isDecimalDigit c = false ∧ c ≠ '.') :
    number? (n ++ rest) = some (n, rest) := by
  obtain ⟨whole, hne, hwhole, hn⟩ := hn
  have hne' : whole.isEmpty = false := by simpa using hne
  rcases hn with rfl | ⟨fraction, hf, hfraction, rfl⟩
  · obtain ⟨htake, hdrop⟩ := takeWhile_run hwhole fun c hc => (hr c hc).1
    rw [number?]
    simp only [htake, hdrop, hne', Bool.false_eq_true, if_false]
    split
    case h_1 more => exact absurd rfl (hr '.' rfl).2
    case h_2 => rfl
  · have hpoint : ∀ c ∈ ('.' :: (fraction ++ rest)).head?, isDecimalDigit c = false := by
      rintro c ⟨⟩
      decide
    obtain ⟨htake, hdrop⟩ := takeWhile_run hwhole hpoint
    obtain ⟨htake', hdrop'⟩ := takeWhile_run hfraction fun c hc => (hr c hc).1
    have hf' : fraction.isEmpty = false := by simpa using hf
    rw [List.append_assoc, List.cons_append, number?]
    simp only [htake, hdrop, hne', Bool.false_eq_true, if_false, htake', hdrop', hf']

theorem wordNumber?_eq_some (h : wordNumber? s = some (n, rest)) : s = n ++ rest ∧ IsNumber n := by
  rw [wordNumber?] at h
  simp only [Option.bind_eq_bind, Option.bind_eq_some_iff] at h
  obtain ⟨⟨m, more⟩, hm, h⟩ := h
  split at h
  case isTrue =>
    cases h
    exact number?_eq_some hm
  case isFalse =>
    split at h
    case isTrue => cases h
    case isFalse =>
      cases h
      obtain ⟨hs, hnumber⟩ := number?_eq_some hm
      obtain ⟨c, digits, hcons, hc⟩ := hnumber.exists_cons
      refine ⟨(List.prefix_iff_eq_append.mp (List.takeWhile_prefix _)).symm, _, ?_,
        fun d hd => List.mem_takeWhile_imp hd, .inl rfl⟩
      rw [hs, hcons, List.cons_append, List.takeWhile_cons_of_pos hc]
      exact List.cons_ne_nil _ _

/-- A function before a bare number: its name in some case, white space, and the number. -/
theorem call?_eq_some {f : Function} {name : Text} (h : call? f s = some (name, n, rest)) :
    ∃ c blanks, s = name ++ (c :: blanks ++ (n ++ rest)) ∧ isBlank c = true ∧
      (∀ d ∈ blanks, isBlank d = true) ∧ IsNumber n ∧
      List.Forall₂ (fun a c => meetsLetter a c = true) f.name name := by
  rw [call?] at h
  simp only [Option.bind_eq_bind, Option.bind_eq_some_iff] at h
  obtain ⟨gap, hname, number, hgap, ⟨m, more⟩, hnumber, h⟩ := h
  cases h
  obtain ⟨w, rfl, hmeets⟩ := afterWord?_eq_some.mp hname
  cases gap with
  | nil => cases hgap
  | cons c gap =>
    rw [afterGap?] at hgap
    split at hgap
    case isTrue hc =>
      cases hgap
      obtain ⟨blanks, hblanks, hall⟩ := exists_skipBlanks gap
      obtain ⟨hnr, hn⟩ := wordNumber?_eq_some hnumber
      have htake : (w ++ c :: gap).take f.name.length = w := by
        rw [hmeets.length_eq]
        exact List.take_left
      rw [htake]
      exact ⟨c, blanks, by rw [List.cons_append, ← hnr, ← hblanks], hc, hall, hn, hmeets⟩
    case isFalse => cases hgap

end Numbers

/-! ### What the reader finds -/

section Reading

variable {s t rest : Text} {before : Option Char}

theorem leavesOpen_iff : leavesOpen rest = true ↔ LeavesOpen rest := by
  rw [leavesOpen, Bool.and_eq_true, bne_iff_ne]
  constructor
  · rintro ⟨hnumber, hclosing⟩
    refine ⟨fun c hc => ?_, hclosing⟩
    rw [Option.mem_def.mp hc] at hnumber
    simpa using hnumber
  · rintro ⟨hnumber, hclosing⟩
    refine ⟨?_, hclosing⟩
    cases h : rest.head? with
    | none => rfl
    | some c =>
      obtain ⟨hd, hp⟩ := hnumber c h
      simp [hd, hp]

theorem openRoot_eq_some {found : Found} (h : openRoot before t = some found) :
    ∃ word blanks n rest, t = word ++ '(' :: (blanks ++ (n ++ rest)) ∧
      List.Forall₂ (fun a c => meetsLetter a c = true) "sqrt".toList word ∧
      (∀ c ∈ blanks, isBlank c = true) ∧ IsNumber n ∧ LeavesOpen rest ∧
      found = .upTo ("sqrt(" ++ n ++ ")") t rest := by
  rw [openRoot] at h
  simp only [Option.bind_eq_bind, Option.bind_eq_some_iff] at h
  obtain ⟨opening, hword, inside, hopening, ⟨n, rest⟩, hnumber, h⟩ := h
  obtain ⟨word, rfl, hmeets⟩ := afterWord?_eq_some.mp hword
  obtain rfl := afterSign?_eq_some.mp hopening
  obtain ⟨blanks, hinside, hblanks⟩ := exists_skipBlanks inside
  obtain ⟨hskip, hn⟩ := number?_eq_some hnumber
  split at h
  case isTrue hopen =>
    obtain rfl := Option.some.inj h
    exact ⟨word, blanks, n, rest, by rw [← hskip, ← hinside], hmeets, hblanks, hn,
      leavesOpen_iff.mp hopen, rfl⟩
  case isFalse => cases h

theorem isSome_openRoot : (openRoot before t).isSome = true ↔ OpensRoot t := by
  constructor
  · intro h
    obtain ⟨found, hfound⟩ := Option.isSome_iff_exists.mp h
    obtain ⟨word, blanks, n, rest, ht, hword, hblanks, hn, hrest, -⟩ := openRoot_eq_some hfound
    exact ⟨word, blanks, n, rest, ht, hword, hblanks, hn, hrest⟩
  · rintro ⟨word, blanks, n, rest, rfl, hword, hblanks, hn, hrest⟩
    have hskip : Text.skipBlanks (blanks ++ (n ++ rest)) = n ++ rest := by
      obtain ⟨c, m, rfl, hc⟩ := hn.exists_cons
      refine (takeWhile_run hblanks ?_).2
      rintro d ⟨⟩
      exact isBlank_of_isDecimalDigit hc
    have hread : (word ++ '(' :: (blanks ++ (n ++ rest))).afterWord? "sqrt" =
        some ('(' :: (blanks ++ (n ++ rest))) := afterWord?_eq_some.mpr ⟨word, rfl, hword⟩
    have hopen := leavesOpen_iff.mpr hrest
    rw [openRoot, hread]
    simp only [Option.bind_eq_bind, Option.bind_some, afterSign?_eq_some.mpr rfl, hskip,
      number?_append hn hrest.number, hopen, if_true]
    rfl

theorem finds_openRoot : finds openRoot s = true ↔ HasOpenRoot s := by
  constructor
  · intro h
    obtain ⟨before, t, ht, hr⟩ := exists_of_findsFrom h
    exact ⟨t, ht, isSome_openRoot.mp hr⟩
  · rintro ⟨t, ht, hopen⟩
    have hr : (openRoot none t).isSome = true := isSome_openRoot.mpr hopen
    refine findsFrom_of_suffix (fun _ _ => rfl) ht ?_ hr none
    rintro rfl
    obtain ⟨word, blanks, n, rest, h, -⟩ := hopen
    simp at h

/-- Each open root that is found is closed. -/
theorem openRoot_closes {found : Found} (h : openRoot before t = some found) :
    0 < found.size ∧ Text.excess (t.take found.size) < Text.excess found.replacement := by
  obtain ⟨word, blanks, n, rest, ht, hword, hblanks, hn, -, rfl⟩ := openRoot_eq_some h
  have hpart : t = (word ++ '(' :: (blanks ++ n)) ++ rest := by simp [ht]
  have hbefore : Text.excess (word ++ '(' :: (blanks ++ n)) = -1 := by
    rw [Text.excess_append, Text.excess_cons, Text.excess_append,
      excess_of_meets (by decide) hword, excess_of_blanks hblanks, hn.excess_eq_zero]
    rfl
  have hafter : Text.excess ("sqrt(" ++ n ++ ")") = 0 := by
    rw [Text.excess_append, Text.excess_append, hn.excess_eq_zero]
    rfl
  refine ⟨?_, ?_⟩
  · rw [size_upTo hpart, List.length_append]
    exact Nat.lt_of_lt_of_le (Nat.succ_pos _) (Nat.le_add_left _ _)
  · rw [take_upTo hpart, hbefore]
    exact Int.lt_of_lt_of_le (by decide) (Int.le_of_eq hafter.symm)

end Reading

/-! ### White space at the ends, and case -/

section Invariance

variable {s t rest : Text} {c : Char}

theorem meetsLetter_blank (h : isBlank c = true) : meetsLetter 's' c = false := by
  rw [Bool.eq_false_iff]
  intro hm
  have hs : c = 's' ∨ c = 'S' ∨ c = 'ſ' := by
    simpa [meetsLetter, ← Char.toNat_inj, or_assoc] using hm
  rcases hs with rfl | rfl | rfl
  all_goals cases h

theorem hasOpenRoot_cons (h : isBlank c = true) : HasOpenRoot (c :: s) ↔ HasOpenRoot s := by
  constructor
  · rintro ⟨t, ht, hopen⟩
    rcases List.suffix_cons_iff.mp ht with rfl | ht
    · obtain ⟨word, blanks, n, rest, hword, hmeets, -⟩ := hopen
      cases hmeets with
      | cons hs _ =>
        obtain ⟨rfl, -⟩ := List.cons.inj hword
        exact absurd ((meetsLetter_blank h).symm.trans hs) Bool.false_ne_true
    · exact ⟨t, ht, hopen⟩
  · rintro ⟨t, ht, hopen⟩
    exact ⟨t, ht.trans (List.suffix_cons c s), hopen⟩

theorem skipBlanks_append (h : isBlank c = true) :
    (Text.skipBlanks (rest ++ [c])).head? = rest.skipBlanks.head? := by
  induction rest with
  | nil => simp [Text.skipBlanks, h]
  | cons d rest ih =>
    rw [List.cons_append, Text.skipBlanks, Text.skipBlanks]
    cases hd : isBlank d with
    | true => rw [List.dropWhile_cons_of_pos hd, List.dropWhile_cons_of_pos hd]; exact ih
    | false =>
      rw [List.dropWhile_cons_of_neg (by simp [hd]), List.dropWhile_cons_of_neg (by simp [hd])]
      rfl

theorem leavesOpen_append (h : isBlank c = true) : LeavesOpen (rest ++ [c]) ↔ LeavesOpen rest := by
  constructor
  · rintro ⟨hnumber, hclosing⟩
    refine ⟨fun d hd => hnumber d ?_, by rwa [skipBlanks_append h] at hclosing⟩
    rw [List.head?_append, Option.mem_def.mp hd]
    rfl
  · rintro ⟨hnumber, hclosing⟩
    refine ⟨fun d hd => ?_, by rwa [skipBlanks_append h]⟩
    cases rest with
    | nil =>
      obtain rfl : c = d := by simpa using hd
      refine ⟨Bool.eq_false_iff.mpr fun hd => ?_, ?_⟩
      · rw [isBlank_of_isDecimalDigit hd] at h
        cases h
      · rintro rfl
        cases h
    | cons e rest => exact hnumber d hd

theorem opensRoot_append (h : isBlank c = true) : OpensRoot (t ++ [c]) ↔ OpensRoot t := by
  constructor
  · rintro ⟨word, blanks, n, rest, ht, hword, hblanks, hn, hrest⟩
    rcases List.eq_nil_or_concat rest with rfl | ⟨rest, d, rfl⟩
    · -- The text would end with a digit, but it ends with white space.
      obtain ⟨m, d, rfl, hd⟩ := hn.getLast
      have hsplit : t ++ [c] = word ++ '(' :: (blanks ++ m) ++ [d] := by simp [ht]
      obtain ⟨-, hcd⟩ := List.append_inj' hsplit rfl
      obtain rfl : c = d := by simpa using hcd
      rw [isBlank_of_isDecimalDigit hd] at h
      cases h
    · rw [List.concat_eq_append] at ht hrest
      have hsplit : t ++ [c] = word ++ '(' :: (blanks ++ (n ++ rest)) ++ [d] := by simp [ht]
      obtain ⟨rfl, hcd⟩ := List.append_inj' hsplit rfl
      obtain rfl : c = d := by simpa using hcd
      exact ⟨word, blanks, n, rest, rfl, hword, hblanks, hn, (leavesOpen_append h).mp hrest⟩
  · rintro ⟨word, blanks, n, rest, rfl, hword, hblanks, hn, hrest⟩
    exact ⟨word, blanks, n, rest ++ [c], by simp, hword, hblanks, hn,
      (leavesOpen_append h).mpr hrest⟩

theorem hasOpenRoot_append (h : isBlank c = true) : HasOpenRoot (s ++ [c]) ↔ HasOpenRoot s := by
  constructor
  · rintro ⟨t, ht, hopen⟩
    rcases List.suffix_concat_iff.mp ht with rfl | ⟨u, rfl, hu⟩
    · obtain ⟨word, blanks, n, rest, hnil, -⟩ := hopen
      simp at hnil
    · exact ⟨u, hu, (opensRoot_append h).mp hopen⟩
  · rintro ⟨t, ht, hopen⟩
    exact ⟨t ++ [c], List.suffix_concat_iff.mpr (.inr ⟨t, rfl, ht⟩), (opensRoot_append h).mpr hopen⟩

theorem hasOpenRoot_skipBlanks (s : Text) : HasOpenRoot s.skipBlanks ↔ HasOpenRoot s :=
  Text.skipBlanks_iff (fun _ _ h => hasOpenRoot_cons h) s

theorem hasOpenRoot_reverse_skipBlanks (s : Text) :
    HasOpenRoot s.skipBlanks.reverse ↔ HasOpenRoot s.reverse := by
  refine Text.skipBlanks_iff (p := fun s => HasOpenRoot s.reverse) (fun c s h => ?_) s
  rw [List.reverse_cons]
  exact hasOpenRoot_append h

theorem hasOpenRoot_stripped (s : Text) : HasOpenRoot s.stripped ↔ HasOpenRoot s := by
  have h := hasOpenRoot_reverse_skipBlanks s.skipBlanks.reverse
  rw [List.reverse_reverse] at h
  exact h.trans (hasOpenRoot_skipBlanks s)

/-- The characters that the reader looks for apart from letters. -/
def isCaseless (c : Char) : Bool :=
  isBlank c || isDecimalDigit c || c == '.' || c == '(' || c == ')'

theorem toLower_of_isCaseless : isCaseless c = true → c.toLower = c :=
  forall_toLower (p := fun c d => isCaseless c = true → d = c) (fun _ _ _ => rfl) (by decide) c

theorem isCaseless_toLower (c : Char) : isCaseless c.toLower = isCaseless c :=
  apply_toLower isCaseless (by decide) c

theorem toLower_eq_iff {d : Char} (hd : isCaseless d = true) : c.toLower = d ↔ c = d := by
  constructor
  · rintro rfl
    rw [isCaseless_toLower] at hd
    exact (toLower_of_isCaseless hd).symm
  · rintro rfl
    exact toLower_of_isCaseless hd

theorem map_toLower_of_isCaseless {u : Text} (h : ∀ c ∈ u, isCaseless c = true) :
    u.map Char.toLower = u := by
  rw [List.map_congr_left fun c hc => toLower_of_isCaseless (h c hc), List.map_id']

theorem of_isCaseless_map_toLower {u : Text} (h : ∀ c ∈ u.map Char.toLower, isCaseless c = true) :
    u.map Char.toLower = u := by
  refine map_toLower_of_isCaseless fun c hc => ?_
  rw [← isCaseless_toLower]
  exact h _ (List.mem_map_of_mem hc)

theorem isCaseless_of_mem_number {n : Text} (hn : IsNumber n) : ∀ c ∈ n, isCaseless c = true := by
  have hdigit : ∀ c, isDecimalDigit c = true → isCaseless c = true := fun c hc => by
    simp [isCaseless, hc]
  obtain ⟨whole, -, hwhole, rfl | ⟨fraction, -, hfraction, rfl⟩⟩ := hn
  · exact fun c hc => hdigit c (hwhole c hc)
  · refine List.forall_mem_append.mpr ⟨fun c hc => hdigit c (hwhole c hc), ?_⟩
    exact List.forall_mem_cons.mpr ⟨rfl, fun c hc => hdigit c (hfraction c hc)⟩

theorem isCaseless_of_isBlank (h : isBlank c = true) : isCaseless c = true := by
  simp [isCaseless, h]

theorem meetsLetter_toLower {a : Char} (ha : a.isLower = true) (c : Char) :
    meetsLetter a c.toLower = meetsLetter a c := by
  refine apply_toLower (meetsLetter a) ?_ c
  have := toNat_of_isLower ha
  exact forall_codes (p := fun a => ∀ n ∈ List.range' 65 26,
      meetsLetter a (Char.ofNat n).toLower = meetsLetter a (Char.ofNat n))
    (by decide +kernel : ∀ code ∈ List.range' 97 26, _) (List.mem_range'_1.mpr (by omega))

theorem meets_map_toLower {word w : Text} (hword : ∀ a ∈ word, a.isLower = true) :
    List.Forall₂ (fun a c => meetsLetter a c = true) word (w.map Char.toLower) ↔
      List.Forall₂ (fun a c => meetsLetter a c = true) word w := by
  induction word generalizing w with
  | nil => cases w <;> simp
  | cons a word ih =>
    obtain ⟨ha, hword⟩ := List.forall_mem_cons.mp hword
    cases w with
    | nil => simp
    | cons c w =>
      rw [List.map_cons, List.forall₂_cons, List.forall₂_cons, meetsLetter_toLower ha, ih hword]

theorem skipBlanks_map_toLower (rest : Text) :
    Text.skipBlanks (rest.map Char.toLower) = rest.skipBlanks.map Char.toLower := by
  induction rest with
  | nil => rfl
  | cons c rest ih =>
    rw [List.map_cons, Text.skipBlanks, Text.skipBlanks, List.dropWhile_cons, List.dropWhile_cons,
      isBlank_toLower]
    split
    · exact ih
    · rfl

theorem leavesOpen_map_toLower : LeavesOpen (rest.map Char.toLower) ↔ LeavesOpen rest := by
  have hnumber : (∀ c ∈ (rest.map Char.toLower).head?, isDecimalDigit c = false ∧ c ≠ '.') ↔
      ∀ c ∈ rest.head?, isDecimalDigit c = false ∧ c ≠ '.' := by
    cases rest with
    | nil => simp
    | cons c rest => simp [isDecimalDigit_toLower, toLower_eq_iff (d := '.') rfl]
  have hclosing : (Text.skipBlanks (rest.map Char.toLower)).head? = some ')' ↔
      rest.skipBlanks.head? = some ')' := by
    rw [skipBlanks_map_toLower]
    cases rest.skipBlanks with
    | nil => simp
    | cons c more => simp [toLower_eq_iff (d := ')') rfl]
  constructor
  · exact fun ⟨hn, hc⟩ => ⟨hnumber.mp hn, fun hr => hc (hclosing.mpr hr)⟩
  · exact fun ⟨hn, hc⟩ => ⟨hnumber.mpr hn, fun hr => hc (hclosing.mp hr)⟩

theorem opensRoot_map_toLower : OpensRoot (t.map Char.toLower) ↔ OpensRoot t := by
  constructor
  · rintro ⟨word, blanks, n, rest, ht, hword, hblanks, hn, hrest⟩
    obtain ⟨w, t1, rfl, rfl, h1⟩ := List.map_eq_append_iff.mp ht
    obtain ⟨p, t2, rfl, hp, h2⟩ := List.map_eq_cons_iff.mp h1
    obtain ⟨b, t3, rfl, rfl, h3⟩ := List.map_eq_append_iff.mp h2
    obtain ⟨m, r, rfl, rfl, rfl⟩ := List.map_eq_append_iff.mp h3
    obtain rfl : p = '(' := (toLower_eq_iff rfl).mp hp
    rw [of_isCaseless_map_toLower fun c hc => isCaseless_of_isBlank (hblanks c hc)] at hblanks
    rw [of_isCaseless_map_toLower (isCaseless_of_mem_number hn)] at hn
    exact ⟨w, b, m, r, rfl, (meets_map_toLower (by decide)).mp hword, hblanks, hn,
      leavesOpen_map_toLower.mp hrest⟩
  · rintro ⟨word, blanks, n, rest, rfl, hword, hblanks, hn, hrest⟩
    have hb : blanks.map Char.toLower = blanks :=
      map_toLower_of_isCaseless fun c hc => isCaseless_of_isBlank (hblanks c hc)
    have hm : n.map Char.toLower = n := map_toLower_of_isCaseless (isCaseless_of_mem_number hn)
    refine ⟨word.map Char.toLower, blanks, n, rest.map Char.toLower, ?_,
      (meets_map_toLower (by decide)).mpr hword, hblanks, hn, leavesOpen_map_toLower.mpr hrest⟩
    rw [List.map_append, List.map_cons, List.map_append, List.map_append, hb, hm]
    rfl

theorem hasOpenRoot_map_toLower (s : Text) : HasOpenRoot (s.map Char.toLower) ↔ HasOpenRoot s := by
  constructor
  · rintro ⟨t, ht, hopen⟩
    obtain ⟨u, hu, rfl⟩ := List.suffix_map_iff.mp ht
    exact ⟨u, hu, opensRoot_map_toLower.mp hopen⟩
  · rintro ⟨t, ht, hopen⟩
    exact ⟨t.map Char.toLower, ht.map _, opensRoot_map_toLower.mpr hopen⟩

end Invariance

end Reckoner
