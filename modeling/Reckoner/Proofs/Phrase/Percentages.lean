import Reckoner.Proofs.Phrase.OpenRoot

/-! Percentages of a number, and what is left of them.  Each percentage that is found takes the number
that it is of, so a percentage that starts with this number is not found, and it is left if what it is
of is not the start of another one: `fixed_expandSigns`.  The signs are expanded for good only if none is
left. -/

namespace Reckoner

/-- The text goes on with `% of` and then with `u`. -/
def PercentOf (rest u : Text) : Prop :=
  ∃ gap gap' word gap'', rest = gap ++ '%' :: (gap' ++ (word ++ (gap'' ++ u))) ∧
    (∀ c ∈ gap ++ (gap' ++ gap''), isBlank c = true) ∧
    List.Forall₂ (fun a c => meetsLetter a c = true) "of".toList word

/-- A percentage of a number, up to the first digit of that number. -/
def IsShare (p : Text) : Prop :=
  ∃ n r d, p = n ++ r ∧ IsNumber n ∧ PercentOf r [d] ∧ isDecimalDigit d = true

/-- What follows a percentage of a number goes on as if this number were a percentage, of a number that
starts no percentage itself. -/
def Dangling (rest : Text) : Prop :=
  ∃ u, PercentOf rest u ∧ (∃ d ∈ u.head?, isDecimalDigit d = true) ∧ percentage none u = none

/-! ### What the reader finds -/

section Reading

variable {before : Option Char} {s n r u v m rest p : Text} {c d : Char} {found : Found}

theorem PercentOf.append (h : PercentOf r u) (v : Text) : PercentOf (r ++ v) (u ++ v) := by
  obtain ⟨gap, gap', word, gap'', rfl, hblanks, hword⟩ := h
  exact ⟨gap, gap', word, gap'', by simp, hblanks, hword⟩

theorem PercentOf.split (h : PercentOf r (u ++ v)) : ∃ r', r = r' ++ v ∧ PercentOf r' u := by
  obtain ⟨gap, gap', word, gap'', rfl, hblanks, hword⟩ := h
  exact ⟨gap ++ '%' :: (gap' ++ (word ++ (gap'' ++ u))), by simp, gap, gap', word, gap'', rfl,
    hblanks, hword⟩

theorem isDecimalDigit_of_isBlank (h : isBlank c = true) : isDecimalDigit c = false := by
  by_contra hd
  rw [isBlank_of_isDecimalDigit (by simpa using hd)] at h
  cases h

/-- Neither a digit nor a point is at the start of `% of`. -/
theorem PercentOf.head (h : PercentOf r u) : ∀ c ∈ r.head?, isDecimalDigit c = false ∧ c ≠ '.' := by
  obtain ⟨gap, gap', word, gap'', rfl, hblanks, -⟩ := h
  intro c hc
  cases gap with
  | nil =>
    obtain rfl := Option.some.inj hc
    decide
  | cons b gap =>
    obtain rfl : b = c := Option.some.inj hc
    have hb := hblanks b (by simp)
    refine ⟨isDecimalDigit_of_isBlank hb, ?_⟩
    rintro rfl
    cases hb

theorem head?_skipBlanks_of_digit (h : ∃ d ∈ u.head?, isDecimalDigit d = true) {blanks : Text}
    (hblanks : ∀ c ∈ blanks, isBlank c = true) : Text.skipBlanks (blanks ++ u) = u := by
  obtain ⟨d, hd, hdigit⟩ := h
  refine (takeWhile_run hblanks fun c hc => ?_).2
  obtain rfl := Option.some.inj (hd.symm.trans hc)
  exact isBlank_of_isDecimalDigit hdigit

theorem isSome_number? : (number? s).isSome = true ↔ ∃ d ∈ s.head?, isDecimalDigit d = true := by
  constructor
  · intro h
    obtain ⟨⟨n, rest⟩, hn⟩ := Option.isSome_iff_exists.mp h
    obtain ⟨rfl, hnumber⟩ := number?_eq_some hn
    obtain ⟨d, m, rfl, hd⟩ := hnumber.exists_cons
    exact ⟨d, rfl, hd⟩
  · rintro ⟨d, hhead, hd⟩
    obtain ⟨s, rfl⟩ := List.head?_eq_some_iff.mp hhead
    rw [number?]
    simp only [List.takeWhile_cons_of_pos hd, List.isEmpty_cons, Bool.false_eq_true, if_false]
    split
    · split <;> rfl
    · rfl

/-- The two letters of `of`, each in some case. -/
theorem letter_of_meets {word : Text}
    (h : List.Forall₂ (fun a c => meetsLetter a c = true) "of".toList word) :
    word ≠ [] ∧ ∀ c ∈ word, c ∈ "oOfF".toList := by
  rw [show "of".toList = ['o', 'f'] from rfl] at h
  obtain ⟨o, tail, ho, htail, rfl⟩ := List.forall₂_cons_left_iff.mp h
  obtain ⟨f, tail', hf, hnil, rfl⟩ := List.forall₂_cons_left_iff.mp htail
  obtain rfl := List.forall₂_nil_left_iff.mp hnil
  have hall : ∀ a ∈ "of".toList, ∀ c, c = a ∨ c = a.toUpper → c ∈ "oOfF".toList := by
    rintro a ha c (rfl | rfl)
    · simp only [String.reduceToList, List.mem_pair] at ha
      rcases ha with rfl | rfl <;> decide
    · simp only [String.reduceToList, List.mem_pair] at ha
      rcases ha with rfl | rfl <;> decide
  refine ⟨List.cons_ne_nil _ _, List.forall_mem_cons.mpr ⟨?_, List.forall_mem_singleton.mpr ?_⟩⟩
  · exact hall 'o' (by decide) o (eq_of_meetsLetter (by decide) ho)
  · exact hall 'f' (by decide) f (eq_of_meetsLetter (by decide) hf)

theorem isBlank_of_meets {word : Text}
    (h : List.Forall₂ (fun a c => meetsLetter a c = true) "of".toList word) (rest : Text) :
    ∀ c ∈ (word ++ rest).head?, isBlank c = false := by
  obtain ⟨hne, hword⟩ := letter_of_meets h
  obtain ⟨c, word, rfl⟩ := List.exists_cons_of_ne_nil hne
  rintro _ ⟨⟩
  have hall : ∀ c ∈ "oOfF".toList, isBlank c = false := by decide
  exact hall c (hword c (.head _))

theorem percentage_eq_some : percentage before s = some found ↔ ∃ n r u m rest, s = n ++ r ∧
    IsNumber n ∧ PercentOf r u ∧ number? u = some (m, rest) ∧
    found = .upTo ("(" ++ n ++ "/100)*" ++ m) s rest := by
  rw [percentage]
  simp only [Option.bind_eq_bind, Option.bind_eq_some_iff]
  constructor
  · rintro ⟨⟨n, r⟩, hn, sign, hsign, more, hmore, ⟨m, rest⟩, hm, hfound⟩
    obtain ⟨rfl, hnumber⟩ := number?_eq_some hn
    obtain ⟨gap, hgap, hblank⟩ := exists_skipBlanks r
    obtain ⟨gap', hgap', hblank'⟩ := exists_skipBlanks sign
    obtain ⟨gap'', hgap'', hblank''⟩ := exists_skipBlanks more
    obtain ⟨word, hword, hmeets⟩ := afterWord?_eq_some.mp hmore
    have hr : r = gap ++ '%' :: (gap' ++ (word ++ (gap'' ++ more.skipBlanks))) := by
      rw [← hgap'', ← hword, ← hgap', ← afterSign?_eq_some.mp hsign, ← hgap]
    have hblanks : ∀ c ∈ gap ++ (gap' ++ gap''), isBlank c = true :=
      List.forall_mem_append.mpr ⟨hblank, List.forall_mem_append.mpr ⟨hblank', hblank''⟩⟩
    exact ⟨n, r, more.skipBlanks, m, rest, rfl, hnumber, ⟨gap, gap', word, gap'', hr, hblanks, hmeets⟩, hm,
      (Option.some.inj hfound).symm⟩
  · rintro ⟨n, r, u, m, rest, rfl, hn, hof, hm, rfl⟩
    have hread := number?_append hn hof.head
    obtain ⟨gap, gap', word, gap'', rfl, hblanks, hmeets⟩ := hof
    obtain ⟨hblank, hblanks⟩ := List.forall_mem_append.mp hblanks
    obtain ⟨hblank', hblank''⟩ := List.forall_mem_append.mp hblanks
    have hsign : Text.skipBlanks (gap ++ '%' :: (gap' ++ (word ++ (gap'' ++ u)))) =
        '%' :: (gap' ++ (word ++ (gap'' ++ u))) :=
      (takeWhile_run hblank (by rintro _ ⟨⟩; rfl)).2
    have hword : Text.skipBlanks (gap' ++ (word ++ (gap'' ++ u))) = word ++ (gap'' ++ u) :=
      (takeWhile_run hblank' (isBlank_of_meets hmeets _)).2
    have hnumber : Text.skipBlanks (gap'' ++ u) = u :=
      head?_skipBlanks_of_digit (isSome_number?.mp (by rw [hm]; rfl)) hblank''
    refine ⟨(n, _), hread, gap' ++ (word ++ (gap'' ++ u)), ?_, gap'' ++ u, ?_, (m, rest), ?_, rfl⟩
    · rw [hsign, afterSign?_eq_some]
    · rw [hword]
      exact afterWord?_eq_some.mpr ⟨word, rfl, hmeets⟩
    · rw [hnumber, hm]

theorem isSome_percentage : (percentage before s).isSome = true ↔ ∃ p, p <+: s ∧ IsShare p := by
  constructor
  · intro h
    obtain ⟨found, hfound⟩ := Option.isSome_iff_exists.mp h
    obtain ⟨n, r, u, m, rest, rfl, hn, hof, hm, -⟩ := percentage_eq_some.mp hfound
    obtain ⟨d, hd, hdigit⟩ := isSome_number?.mp (Option.isSome_iff_exists.mpr ⟨_, hm⟩)
    obtain ⟨u, rfl⟩ := List.head?_eq_some_iff.mp hd
    obtain ⟨r, rfl, hshare⟩ := PercentOf.split (u := [d]) (v := u) hof
    exact ⟨n ++ r, ⟨u, by simp⟩, n, r, d, rfl, hn, hshare, hdigit⟩
  · rintro ⟨p, ⟨v, rfl⟩, n, r, d, rfl, hn, hof, hdigit⟩
    obtain ⟨⟨m, rest⟩, hm⟩ := Option.isSome_iff_exists.mp
      (isSome_number?.mpr ⟨d, (rfl : (d :: v).head? = some d), hdigit⟩)
    refine Option.isSome_iff_exists.mpr ⟨_, percentage_eq_some.mpr
      ⟨n, r ++ v, d :: v, m, rest, by simp, hn, hof.append v, hm, rfl⟩⟩

/-- The characters of a percentage. -/
def isShareMark (c : Char) : Bool :=
  isBlank c || isDecimalDigit c || c ∈ ".%oOfF".toList

theorem IsNumber.forall_mem (h : IsNumber n) : ∀ c ∈ n, isDecimalDigit c = true ∨ c = '.' := by
  obtain ⟨whole, -, hwhole, rfl | ⟨fraction, -, hfraction, rfl⟩⟩ := h
  · exact fun c hc => .inl (hwhole c hc)
  · refine List.forall_mem_append.mpr ⟨fun c hc => .inl (hwhole c hc), ?_⟩
    exact List.forall_mem_cons.mpr ⟨.inr rfl, fun c hc => .inl (hfraction c hc)⟩

/-- The characters of `% of`. -/
theorem PercentOf.forall_mem (h : PercentOf r []) :
    ∀ c ∈ r, isBlank c = true ∨ c ∈ "%oOfF".toList := by
  obtain ⟨gap, gap', word, gap'', rfl, hblanks, hmeets⟩ := h
  obtain ⟨-, hword⟩ := letter_of_meets hmeets
  intro c hc
  simp only [List.mem_append, List.mem_cons, List.not_mem_nil, or_false] at hc hblanks
  rcases hc with hc | rfl | hc | hc | hc
  · exact .inl (hblanks c (.inl hc))
  · exact .inr (by decide)
  · exact .inl (hblanks c (.inr (.inl hc)))
  · exact .inr (.tail _ (hword c hc))
  · exact .inl (hblanks c (.inr (.inr hc)))

/-- No percentage starts where no digit stands. -/
theorem percentage_cons_eq_none (hc : isDecimalDigit c = false) (before : Option Char) (s : Text) :
    percentage before (c :: s) = none := by
  cases hread : percentage before (c :: s) with
  | none => rfl
  | some found =>
    obtain ⟨n, r, u, m, rest, hs, hn, -⟩ := percentage_eq_some.mp hread
    obtain ⟨d, n, rfl, hd⟩ := hn.exists_cons
    obtain ⟨rfl, -⟩ := List.cons.inj hs
    rw [hc] at hd
    cases hd

theorem PercentOf.isDecimalDigit_eq_false (h : PercentOf r []) : ∀ c ∈ r, isDecimalDigit c = false := by
  intro c hc
  rcases h.forall_mem c hc with hblank | hletter
  · exact isDecimalDigit_of_isBlank hblank
  · have hall : ∀ c ∈ "%oOfF".toList, isDecimalDigit c = false := by decide
    exact hall c hletter

theorem IsNumber.isShareMark (h : IsNumber n) : ∀ c ∈ n, isShareMark c = true := by
  intro c hc
  rw [Reckoner.isShareMark]
  rcases h.forall_mem c hc with h | rfl
  · simp [h]
  · rfl

theorem PercentOf.isShareMark (h : PercentOf r []) : ∀ c ∈ r, isShareMark c = true := by
  intro c hc
  rcases h.forall_mem c hc with h | h
  · simp [Reckoner.isShareMark, h]
  · have hall : ∀ c ∈ "%oOfF".toList, Reckoner.isShareMark c = true := by decide
    exact hall c h

theorem IsShare.isShareMark (h : IsShare p) : ∀ c ∈ p, isShareMark c = true := by
  obtain ⟨n, r, d, rfl, hn, hof, hd⟩ := h
  obtain ⟨r, rfl, hsign⟩ := PercentOf.split (u := []) (v := [d]) hof
  simp only [List.forall_mem_append, List.forall_mem_singleton]
  exact ⟨hn.isShareMark, hsign.isShareMark, by simp [Reckoner.isShareMark, hd]⟩

theorem PercentOf.sign_mem (h : PercentOf r u) : '%' ∈ r := by
  obtain ⟨gap, gap', word, gap'', rfl, -⟩ := h
  simp

theorem PercentOf.exists_letter (h : PercentOf r u) : ∃ c ∈ r, meetsLetter 'f' c = true := by
  obtain ⟨gap, gap', word, gap'', rfl, -, hmeets⟩ := h
  obtain ⟨c, hc, hf⟩ := exists_of_mem_forall₂ hmeets (by decide : 'f' ∈ "of".toList)
  exact ⟨c, by simp [hc], hf⟩

theorem IsShare.sign_mem (h : IsShare p) : '%' ∈ p := by
  obtain ⟨n, r, d, rfl, -, hof, -⟩ := h
  exact List.mem_append_right n hof.sign_mem

theorem IsNumber.sign_not_mem (h : IsNumber n) : '%' ∉ n := by
  intro hmem
  rcases h.forall_mem _ hmem with h | h
  all_goals cases h

/-- A number that is read takes all digits that are there, and a point in front of more digits unless
it has one. -/
theorem number?_rest (h : number? s = some (m, rest)) :
    (∀ c ∈ rest.head?, isDecimalDigit c = false) ∧
      ∀ c more, rest = '.' :: c :: more → isDecimalDigit c = true → '.' ∈ m := by
  rw [number?] at h
  simp only at h
  split at h
  case isTrue => cases h
  case isFalse =>
    split at h
    case h_1 more hmore =>
      split at h
      case isTrue hempty =>
        cases h
        rw [hmore]
        refine ⟨by rintro _ ⟨⟩; rfl, ?_⟩
        rintro c more ⟨⟩ hc
        rw [List.takeWhile_cons_of_pos hc] at hempty
        cases hempty
      case isFalse =>
        cases h
        exact ⟨head?_dropWhile_eq_false, fun _ _ _ _ => by simp⟩
    case h_2 hpoint =>
      cases h
      exact ⟨head?_dropWhile_eq_false, fun c more hrest _ => absurd hrest (hpoint _)⟩

end Reading

/-! ### What is left -/

section Left

variable {before : Option Char} {s out p r u v m n rest : Text} {c d : Char} {rests : List Text}

theorem infix_split (h : p <:+: s ++ c :: v) (hc : c ∉ p) : p <:+: s ∨ p <:+: v := by
  obtain ⟨a, b, hab⟩ := h
  rw [List.append_assoc] at hab
  rcases List.append_eq_append_iff.mp hab with ⟨t, rfl, ht⟩ | ⟨t, rfl, ht⟩
  · -- `p` starts in `s`, and it ends there too.
    rcases List.append_eq_append_iff.mp ht with ⟨t', rfl, -⟩ | ⟨t', rfl, ht'⟩
    · exact .inl ⟨a, t', by simp⟩
    · cases t' with
      | nil => exact .inl ⟨a, [], by simp⟩
      | cons d t' =>
        obtain ⟨rfl, -⟩ := List.cons.inj ht'
        simp at hc
  · cases t with
    | nil =>
      cases p with
      | nil => exact .inl (List.nil_infix)
      | cons d p =>
        obtain ⟨rfl, -⟩ := List.cons.inj ht
        simp at hc
    | cons d t =>
      obtain ⟨-, rfl⟩ := List.cons.inj ht
      exact .inr ⟨t, b, by simp⟩

theorem infix_append (h : p <:+: s ++ v) :
    p <:+: v ∨ ∃ a b, s = a ++ b ∧ b ≠ [] ∧ p <+: b ++ v := by
  induction s with
  | nil => exact .inl h
  | cons c s ih =>
    rcases List.infix_cons_iff.mp h with h | h
    · exact .inr ⟨[], c :: s, rfl, List.cons_ne_nil _ _, h⟩
    · rcases ih h with h | ⟨a, b, rfl, hb, h⟩
      · exact .inl h
      · exact .inr ⟨c :: a, b, rfl, hb, h⟩

theorem cuts_percentage : Reader.Cuts percentage := by
  intro before s found h
  obtain ⟨n, r, u, m, rest, rfl, hn, hof, hm, rfl⟩ := percentage_eq_some.mp h
  obtain ⟨rfl, -⟩ := number?_eq_some hm
  obtain ⟨r, rfl, -⟩ := PercentOf.split (u := m) (v := rest) hof
  obtain ⟨d, n, rfl, -⟩ := hn.exists_cons
  exact ⟨d :: n ++ r, rest, _, by simp, by simp, rfl⟩

theorem marks_percentage : Reader.Marks percentage '(' := by
  intro before s found h
  obtain ⟨n, r, u, m, rest, -, -, -, -, rfl⟩ := percentage_eq_some.mp h
  rfl

theorem finds_percentage : finds percentage s = true ↔ ∃ p, p <:+: s ∧ IsShare p := by
  constructor
  · intro h
    obtain ⟨before, t, ht, hr⟩ := exists_of_findsFrom h
    obtain ⟨p, hp, hshare⟩ := isSome_percentage.mp hr
    exact ⟨p, hp.isInfix.trans ht.isInfix, hshare⟩
  · rintro ⟨p, ⟨a, b, rfl⟩, hshare⟩
    have hr : (percentage none (p ++ b)).isSome = true :=
      isSome_percentage.mpr ⟨p, List.prefix_append p b, hshare⟩
    refine findsFrom_of_suffix (fun _ _ => rfl) ⟨a, by simp⟩ ?_ hr none
    intro hnil
    have := hshare.sign_mem
    rw [(List.append_eq_nil_iff.mp hnil).1] at this
    cases this

/-- No percentage is left where the rewriting of a text starts: in the text it would be found there. -/
theorem Rewrites.not_prefix_of_isShare (h : Rewrites percentage before s out rests) (hp : IsShare p) :
    ¬p <+: out := by
  intro hstart
  have hmark : '(' ∉ p := fun hmem => absurd (hp.isShareMark _ hmem) (by decide)
  obtain ⟨s, out, rfl, rfl, -⟩ := h.exists_of_start marks_percentage hstart hmark
  have hread : (percentage before (p ++ s)).isSome = true :=
    isSome_percentage.mpr ⟨p, List.prefix_append p s, hp⟩
  obtain ⟨n, r, d, rfl, hn, -⟩ := hp
  obtain ⟨c, n, rfl, hc⟩ := hn.exists_cons
  obtain rfl := Option.some.inj (h.head?_eq marks_percentage hread (by simp))
  cases hc

/-- A percentage, the part of a text that is found, and what is put in its place. -/
theorem exists_of_found {part replacement : Text}
    (h : percentage before (part ++ rest) = some (.upTo replacement (part ++ rest) rest)) :
    ∃ n r m, part = n ++ (r ++ m) ∧ replacement = "(" ++ n ++ "/100)*" ++ m ∧ IsNumber n ∧
      PercentOf r [] ∧ number? (m ++ rest) = some (m, rest) := by
  obtain ⟨n, r, u, m, rest', hs, hn, hof, hm, hfound⟩ := percentage_eq_some.mp h
  obtain ⟨rfl, -⟩ := number?_eq_some hm
  obtain ⟨r, rfl, hsign⟩ := PercentOf.split (u := []) (v := m ++ rest') hof
  obtain ⟨rfl, rfl⟩ := upTo_inj (List.suffix_append part rest)
    (hs ▸ ⟨n ++ (r ++ m), by simp⟩) hfound
  have hpart : part ++ rest = (n ++ (r ++ m)) ++ rest := by simpa using hs
  exact ⟨n, r, m, List.append_cancel_right hpart, rfl, hn, hsign, hm⟩

/-- A dangling rest leaves a percentage, which starts behind a product sign. -/
theorem Rewrites.exists_share (h : Rewrites percentage before s out rests)
    (hdangling : ∃ rest ∈ rests, Dangling rest) : ∃ p, '*' :: p <:+: out ∧ IsShare p := by
  induction h with
  | nil => simp at hdangling
  | keep _ _ ih =>
    obtain ⟨p, hp, hshare⟩ := ih hdangling
    exact ⟨p, hp.trans (List.suffix_cons _ _).isInfix, hshare⟩
  | @found _ part rest replacement out rests hne hread more ih =>
    obtain ⟨rest', hmem, hdangling⟩ := hdangling
    rcases List.mem_cons.mp hmem with rfl | hmem
    · obtain ⟨n, -, m, -, rfl, hn, -, hm⟩ := exists_of_found hread
      obtain ⟨u, hof, ⟨d, hhead, hd⟩, hnone⟩ := hdangling
      obtain ⟨u, rfl⟩ := List.head?_eq_some_iff.mp hhead
      obtain ⟨r, rfl, hsign⟩ := PercentOf.split (u := []) (v := d :: u) hof
      -- Nothing is found up to the digit and at it, so all of this stays.
      obtain ⟨out, rfl, hdigit⟩ := more.exists_of_kept fun c hc =>
        percentage_cons_eq_none (hsign.isDecimalDigit_eq_false c hc)
      obtain ⟨out, rfl, -⟩ := hdigit.of_none hnone
      refine ⟨m ++ (r ++ [d]), ⟨"(" ++ n ++ "/100)", out, by simp⟩, m, r ++ [d], d, rfl,
        (number?_eq_some hm).2, hsign.append [d], hd⟩
    · obtain ⟨p, hp, hshare⟩ := ih ⟨rest', hmem, hdangling⟩
      exact ⟨p, hp.trans (List.suffix_append _ _).isInfix, hshare⟩

/-- The fraction of a number is a number. -/
theorem IsNumber.of_point {a : Text} (h : IsNumber (a ++ '.' :: n)) : IsNumber n := by
  have hpoint : ∀ digits : Text, (∀ c ∈ digits, isDecimalDigit c = true) → '.' ∉ digits :=
    fun digits hdigits hmem => absurd (hdigits _ hmem) (by decide)
  obtain ⟨whole, -, hwhole, hn | ⟨fraction, hne, hfraction, hn⟩⟩ := h
  · exact absurd (by simp [← hn]) (hpoint whole hwhole)
  · rcases List.append_eq_append_iff.mp hn with ⟨t, rfl, ht⟩ | ⟨t, rfl, ht⟩
    · cases t with
      | nil =>
        obtain ⟨-, rfl⟩ := List.cons.inj ht
        exact ⟨n, hne, hfraction, .inl rfl⟩
      | cons c t =>
        obtain ⟨rfl, -⟩ := List.cons.inj ht
        exact absurd (by simp) (hpoint _ hwhole)
    · cases t with
      | nil =>
        obtain ⟨-, rfl⟩ := List.cons.inj ht
        exact ⟨fraction, hne, hfraction, .inl rfl⟩
      | cons c t =>
        obtain ⟨-, rfl⟩ := List.cons.inj ht
        exact absurd (by simp) (hpoint _ hfraction)

/-- A percentage that starts within the number at the end of a replacement and goes on behind it starts
with the end of this number. -/
theorem Rewrites.exists_percentOf (h : Rewrites percentage before rest out rests)
    (hm : number? (m ++ rest) = some (m, rest)) {a b : Text} (hab : m = a ++ b)
    (hp : IsShare p) (hstart : p <+: b ++ out) :
    ∃ r d, PercentOf r [d] ∧ isDecimalDigit d = true ∧ r <+: out := by
  have hnumber := (number?_eq_some hm).2.forall_mem
  have hsign := hp.sign_mem
  obtain ⟨n, r, d, rfl, hn, hof, hd⟩ := id hp
  obtain ⟨t, ht⟩ := hstart
  rcases List.append_eq_append_iff.mp ht with ⟨u, rfl, -⟩ | ⟨q, hq, rfl⟩
  · -- The number has no percent sign.
    rcases hnumber '%' (by rw [hab]; exact List.mem_append_right a (List.mem_append_left u hsign))
      with h | h
    all_goals cases h
  · rcases List.append_eq_append_iff.mp hq with ⟨z, rfl, rfl⟩ | ⟨z, rfl, rfl⟩
    · cases z with
      | nil => exact ⟨q, d, hof, hd, List.prefix_append q t⟩
      | cons c z =>
        obtain ⟨hdigit, hpoint⟩ := hof.head c rfl
        rcases hnumber c (by simp [hab]) with h | h
        · rw [hdigit] at h
          cases h
        · exact absurd h hpoint
    · cases z with
      | nil => exact ⟨r, d, hof, hd, List.prefix_append r t⟩
      | cons c z =>
        -- The number of the percentage would go on behind the number at the end of the replacement.
        exfalso
        have hc := hn.forall_mem c (by simp)
        have hmark : '(' ∉ [c] := by
          rintro (_ | ⟨_, hnil⟩)
          · exact absurd hc (by decide)
          · cases hnil
        obtain ⟨s, out, rfl, hout, more⟩ :=
          h.exists_of_start marks_percentage (p := [c]) ⟨z ++ r ++ t, by simp⟩ hmark
        rcases hc with hc | rfl
        · rw [(number?_rest hm).1 c rfl] at hc
          cases hc
        · refine more.not_prefix_of_isShare ⟨z, r, d, rfl, hn.of_point, hof, hd⟩ ⟨t, ?_⟩
          simpa using hout

/-- What follows such a number is dangling. -/
theorem Rewrites.dangling (h : Rewrites percentage before rest out rests)
    (hm : number? (m ++ rest) = some (m, rest)) {a b : Text} (hab : m = a ++ b)
    (hp : IsShare p) (hstart : p <+: b ++ out) : Dangling rest := by
  obtain ⟨r, d, hof, hd, hstart⟩ := h.exists_percentOf hm hab hp hstart
  obtain ⟨r, rfl, hsign⟩ := PercentOf.split (u := []) (v := [d]) hof
  have hmark : '(' ∉ r := fun hmem => absurd (hsign.forall_mem _ hmem) (by decide)
  obtain ⟨s, out, rfl, rfl, more⟩ :=
    h.exists_of_start marks_percentage ((List.prefix_append r [d]).trans hstart) hmark
  obtain ⟨out, rfl⟩ := (List.prefix_append_right_inj r).mp hstart
  obtain ⟨s, -, rfl, -⟩ := more.exists_of_start marks_percentage (p := [d]) ⟨out, rfl⟩ (by
    rintro (_ | ⟨_, hnil⟩)
    · cases hd
    · cases hnil)
  refine ⟨d :: s, hsign.append (d :: s), ⟨d, rfl, hd⟩, ?_⟩
  cases hread : percentage none (d :: s) with
  | none => rfl
  | some found =>
    -- What is put in place of a percentage does not start with a digit.
    obtain rfl := Option.some.inj
      (more.head?_eq marks_percentage (Option.isSome_iff_exists.mpr ⟨found, hread⟩) (by simp))
    cases hd

/-- What is left of percentages is left by dangling rests. -/
theorem Rewrites.exists_dangling (h : Rewrites percentage before s out rests) (hp : IsShare p)
    (hin : p <:+: out) : ∃ rest ∈ rests, Dangling rest := by
  induction h with
  | nil =>
    have := hp.sign_mem
    rw [List.infix_nil.mp hin] at this
    cases this
  | keep hnone more ih =>
    rcases List.infix_cons_iff.mp hin with hstart | hin
    · exact absurd hstart ((Rewrites.keep hnone more).not_prefix_of_isShare hp)
    · exact ih hin
  | @found _ part rest replacement out rests hne hread more ih =>
    obtain ⟨n, -, m, -, rfl, hn, -, hm⟩ := exists_of_found hread
    have hstar : '*' ∉ p := fun hmem => absurd (hp.isShareMark _ hmem) (by decide)
    have hin : p <:+: ("(" ++ n ++ "/100)") ++ '*' :: (m ++ out) := by simpa using hin
    rcases infix_split hin hstar with hin | hin
    · have hmem := hin.mem hp.sign_mem
      have hsign := hn.sign_not_mem
      simp [hsign] at hmem
    · rcases infix_append hin with hin | ⟨a, b, hab, -, hstart⟩
      · obtain ⟨rest', hmem, hdangling⟩ := ih hin
        exact ⟨rest', .tail _ hmem, hdangling⟩
      · exact ⟨rest, .head _, more.dangling hm hab hp hstart⟩

end Left

/-! ### Closed roots -/

section Roots

variable {before : Option Char} {s t out p n rest : Text} {c : Char} {rests : List Text}

theorem eq_of_meetsLetter_s (h : meetsLetter 's' c = true) : c ∈ "sSſ".toList := by
  have : c = 's' ∨ c = 'S' ∨ c = 'ſ' := by
    simpa [meetsLetter, ← Char.toNat_inj, or_assoc] using h
  rcases this with rfl | rfl | rfl <;> decide

theorem meetsLetter_of_isShareMark (h : isShareMark c = true) : meetsLetter 's' c = false := by
  by_contra hmeets
  have hall : ∀ c ∈ "sSſ".toList, isShareMark c = false := by decide +kernel
  rw [hall c (eq_of_meetsLetter_s (by simpa using hmeets))] at h
  cases h

/-- Nothing is found where no root starts. -/
theorem openRoot_eq_none (hc : meetsLetter 's' c = false) (before : Option Char) (s : Text) :
    openRoot before (c :: s) = none := by
  cases hread : openRoot before (c :: s) with
  | none => rfl
  | some found =>
    obtain ⟨word, blanks, n, rest, hs, hword, -⟩ := openRoot_eq_some hread
    obtain ⟨d, word, hd, -, rfl⟩ := List.forall₂_cons_left_iff.mp hword
    obtain ⟨rfl, -⟩ := List.cons.inj hs
    exact absurd (hd.symm.trans hc) (by decide)

/-- An open root, the part of a text that is found, and what is put in its place. -/
theorem exists_of_found_root {part replacement : Text}
    (h : openRoot before (part ++ rest) = some (.upTo replacement (part ++ rest) rest)) :
    ∃ word blanks n, part = word ++ '(' :: (blanks ++ n) ∧ replacement = "sqrt(" ++ n ++ ")" ∧
      List.Forall₂ (fun a c => meetsLetter a c = true) "sqrt".toList word ∧
      (∀ c ∈ blanks, isBlank c = true) ∧ IsNumber n := by
  obtain ⟨word, blanks, n, rest', hs, hword, hblanks, hn, -, hfound⟩ := openRoot_eq_some h
  obtain ⟨rfl, rfl⟩ := upTo_inj (List.suffix_append part rest)
    (hs ▸ ⟨word ++ '(' :: (blanks ++ n), by simp⟩) hfound
  have hpart : part ++ rest = (word ++ '(' :: (blanks ++ n)) ++ rest := by simpa using hs
  exact ⟨word, blanks, n, List.append_cancel_right hpart, rfl, hword, hblanks, hn⟩

theorem cuts_openRoot : Reader.Cuts openRoot := by
  intro before s found h
  obtain ⟨word, blanks, n, rest, rfl, -, -, -, -, rfl⟩ := openRoot_eq_some h
  exact ⟨word ++ '(' :: (blanks ++ n), rest, _, by simp, by simp, rfl⟩

theorem marks_openRoot : Reader.Marks openRoot 's' := by
  intro before s found h
  obtain ⟨word, blanks, n, rest, -, -, -, -, -, rfl⟩ := openRoot_eq_some h
  rfl

/-- The characters of an open root up to its number. -/
def isRootMark (c : Char) : Bool :=
  isBlank c || isDecimalDigit c || c ∈ ".(".toList || "sqrt".toList.any fun a => meetsLetter a c

theorem isRootMark_of_mem {word blanks : Text}
    (hword : List.Forall₂ (fun a c => meetsLetter a c = true) "sqrt".toList word)
    (hblanks : ∀ c ∈ blanks, isBlank c = true) (hn : IsNumber n) :
    ∀ c ∈ word ++ '(' :: (blanks ++ n), isRootMark c = true := by
  simp only [List.forall_mem_append, List.forall_mem_cons]
  refine ⟨fun c hc => ?_, rfl, fun c hc => by simp [isRootMark, hblanks c hc], fun c hc => ?_⟩
  · obtain ⟨a, ha, hmeets⟩ := exists_of_mem_forall₂ hword.flip hc
    rw [isRootMark, List.any_eq_true.mpr ⟨a, ha, hmeets⟩, Bool.or_true]
  · rcases hn.forall_mem c hc with h | rfl
    · simp [isRootMark, h]
    · rfl

/-- The closing of roots makes no percentage. -/
theorem Rewrites.infix_of_rewritten (h : Rewrites openRoot before s out rests) (hp : IsShare p)
    (hin : p <:+: out) : p <:+: s := by
  have hnot {c : Char} (hc : isShareMark c = false) : c ∉ p := fun hmem => by
    rw [hp.isShareMark c hmem] at hc
    cases hc
  induction h with
  | nil => exact hin
  | keep hnone more ih =>
    rcases List.infix_cons_iff.mp hin with hstart | hin
    · obtain ⟨s, out, hs, -⟩ :=
        (Rewrites.keep hnone more).exists_of_start marks_openRoot hstart (hnot (by decide))
      exact hs ▸ (List.prefix_append p s).isInfix
    · exact (ih hin).trans (List.suffix_cons _ _).isInfix
  | @found _ part rest replacement out rests hne hread more ih =>
    obtain ⟨word, blanks, n, rfl, rfl, -, -, hn⟩ := exists_of_found_root hread
    have hin : p <:+: "sqrt".toList ++ '(' :: (n ++ ')' :: out) := by simpa using hin
    rcases infix_split hin (hnot (by decide)) with hin | hin
    · exact absurd (hin.mem hp.sign_mem) (by decide)
    · rcases infix_split hin (hnot (by decide)) with hin | hin
      · exact absurd (hin.mem hp.sign_mem) hn.sign_not_mem
      · exact (ih hin).trans (List.suffix_append _ _).isInfix

/-- The closing of roots keeps a percentage behind a product sign. -/
theorem Rewrites.infix_of_product (h : Rewrites openRoot before s out rests) (hp : IsShare p)
    (hin : '*' :: p <:+: s) : '*' :: p <:+: out := by
  have hnone : ∀ c ∈ '*' :: p, ∀ before s, openRoot before (c :: s) = none := by
    refine List.forall_mem_cons.mpr ⟨openRoot_eq_none (by decide), fun c hc => ?_⟩
    exact openRoot_eq_none (meetsLetter_of_isShareMark (hp.isShareMark c hc))
  induction h with
  | nil => exact hin
  | @keep before c s out rests hread more ih =>
    rcases List.infix_cons_iff.mp hin with ⟨t, ht⟩ | hin
    · have hkept := Rewrites.keep hread more
      rw [← ht] at hkept
      obtain ⟨out, hout, -⟩ := hkept.exists_of_kept hnone
      exact hout ▸ (List.prefix_append _ _).isInfix
    · exact (ih hin).trans (List.suffix_cons _ _).isInfix
  | @found _ part rest replacement out rests hne hread more ih =>
    obtain ⟨word, blanks, n, rfl, rfl, hword, hblanks, hn⟩ := exists_of_found_root hread
    rcases infix_append hin with hin | ⟨a, b, hab, hb, hstart⟩
    · exact (ih hin).trans (List.suffix_append _ _).isInfix
    · -- No root has a product sign in it.
      exfalso
      obtain ⟨d, b, rfl⟩ := List.exists_cons_of_ne_nil hb
      obtain ⟨rfl, -⟩ := List.cons_prefix_cons.mp hstart
      have hmark := isRootMark_of_mem hword hblanks hn '*' (hab ▸ List.mem_append_right a (.head _))
      exact absurd hmark (by decide)

/-- Closing the roots that follow a number closes none in front of it. -/
theorem Rewrites.leavesOpen (h : Rewrites openRoot before s out rests) (hout : LeavesOpen out) :
    LeavesOpen s := by
  refine ⟨fun c hc => ?_, fun hclosing => ?_⟩
  · obtain ⟨s, rfl⟩ := List.head?_eq_some_iff.mp hc
    cases hmeets : meetsLetter 's' c with
    | true =>
      have hall : ∀ c ∈ "sSſ".toList, isDecimalDigit c = false ∧ c ≠ '.' := by decide
      exact hall c (eq_of_meetsLetter_s hmeets)
    | false =>
      obtain ⟨out, rfl, -⟩ := h.of_none (openRoot_eq_none hmeets before s)
      exact hout.number c rfl
  · obtain ⟨blanks, hs, hblanks⟩ := exists_skipBlanks s
    obtain ⟨tail, htail⟩ := List.head?_eq_some_iff.mp hclosing
    have hs : s = (blanks ++ [')']) ++ tail := by
      rw [htail] at hs
      simpa using hs
    rw [hs] at h
    obtain ⟨out, rfl, -⟩ := h.exists_of_kept <| List.forall_mem_append.mpr
      ⟨fun c hc => openRoot_eq_none (meetsLetter_blank (hblanks c hc)),
        List.forall_mem_singleton.mpr (openRoot_eq_none (by decide))⟩
    have hskip : Text.skipBlanks (blanks ++ ')' :: out) = ')' :: out :=
      (takeWhile_run hblanks (by rintro _ ⟨⟩; rfl)).2
    refine hout.closing ?_
    rw [List.append_assoc, List.singleton_append, hskip]
    rfl

theorem suffix_of_suffix_append {q : Char → Bool} {a b : Text} (ha : ∀ c ∈ a, q c = false)
    (hc : q c = true) (h : c :: t <:+ a ++ b) : c :: t <:+ b := by
  induction a with
  | nil => exact h
  | cons d a ih =>
    obtain ⟨hd, ha⟩ := List.forall_mem_cons.mp ha
    rcases List.suffix_cons_iff.mp h with h | h
    · obtain ⟨rfl, -⟩ := List.cons.inj h
      rw [hc] at hd
      cases hd
    · exact ih ha h

/-- A root with its parenthesis closed is not open. -/
theorem not_opensRoot_closed (hn : IsNumber n) (rest : Text) :
    ¬OpensRoot ("sqrt(" ++ (n ++ ')' :: rest)) := by
  rw [← (isSome_openRoot : (openRoot none _).isSome = true ↔ _)]
  have hread : Text.afterWord? ("sqrt(" ++ (n ++ ')' :: rest)) "sqrt" =
      some ('(' :: (n ++ ')' :: rest)) := afterWord?_eq_some.mpr ⟨"sqrt", rfl, by decide⟩
  have hskip : Text.skipBlanks (n ++ ')' :: rest) = n ++ ')' :: rest := by
    obtain ⟨d, n, rfl, hd⟩ := hn.exists_cons
    exact List.dropWhile_cons_of_neg (by simp [isBlank_of_isDecimalDigit hd])
  have hclosed : Reckoner.leavesOpen (')' :: rest) = false := by
    rw [← Bool.not_eq_true, leavesOpen_iff]
    exact fun h => h.closing rfl
  rw [openRoot, hread]
  simp only [Option.bind_eq_bind, Option.bind_some, afterSign?_eq_some.mpr rfl, hskip,
    number?_append hn (by rintro _ ⟨⟩; decide : ∀ c ∈ (')' :: rest).head?, _), hclosed]
  exact Bool.false_ne_true

/-- No root is open after the closing of roots. -/
theorem Rewrites.not_opensRoot (h : Rewrites openRoot before s out rests) (ht : t <:+ out) :
    ¬OpensRoot t := by
  induction h with
  | nil =>
    rintro ⟨word, blanks, n, rest, hsplit, -⟩
    rw [List.suffix_nil.mp ht] at hsplit
    simp at hsplit
  | @keep before d s out rests hread more ih =>
    rcases List.suffix_cons_iff.mp ht with rfl | ht
    · rintro ⟨word, blanks, n, rest, hsplit, hword, hblanks, hn, hrest⟩
      obtain ⟨c, word, hc, hletters, rfl⟩ := List.forall₂_cons_left_iff.mp hword
      obtain ⟨rfl, rfl⟩ := List.cons.inj hsplit
      -- Up to the number nothing has been put in, so the root would have been found in the text.
      have hmark : 's' ∉ word ++ '(' :: (blanks ++ n) := by
        simp only [List.mem_append, List.mem_cons, not_or]
        refine ⟨fun hmem => ?_, by decide, fun hmem => ?_, fun hmem => ?_⟩
        · obtain ⟨a, ha, hmeets⟩ := exists_of_mem_forall₂ hletters.flip hmem
          have hall : ∀ a ∈ "qrt".toList, meetsLetter a 's' = false := by decide
          rw [hall a ha] at hmeets
          cases hmeets
        · exact absurd (hblanks _ hmem) (by decide)
        · rcases hn.forall_mem _ hmem with h | h
          all_goals cases h
      obtain ⟨s, out, rfl, hout, more⟩ := more.exists_of_start marks_openRoot
        (p := word ++ '(' :: (blanks ++ n)) ⟨rest, by simp⟩ hmark
      obtain rfl : rest = out := by simpa using hout
      have hopens : OpensRoot (d :: (word ++ '(' :: (blanks ++ n) ++ s)) :=
        ⟨d :: word, blanks, n, s, by simp, hword, hblanks, hn, more.leavesOpen hrest⟩
      have hsome : (openRoot before _).isSome = true := isSome_openRoot.mpr hopens
      rw [hread] at hsome
      cases hsome
    · exact ih ht
  | @found _ part rest replacement out rests hne hread more ih =>
    obtain ⟨word, blanks, n, rfl, rfl, -, -, hn⟩ := exists_of_found_root hread
    intro hopen
    obtain ⟨word, blanks, m, rest, rfl, hword, -⟩ := id hopen
    obtain ⟨c, word, hc, -, rfl⟩ := List.forall₂_cons_left_iff.mp hword
    have ht : c :: word ++ '(' :: (blanks ++ (m ++ rest)) <:+ 's' :: ("qrt(" ++ n ++ [')'] ++ out) := by
      simpa using ht
    rcases List.suffix_cons_iff.mp ht with heq | ht
    · rw [heq] at hopen
      exact not_opensRoot_closed hn out (by simpa using hopen)
    · refine ih (suffix_of_suffix_append (q := meetsLetter 's') (fun d hd => ?_) hc ht) hopen
      simp only [List.mem_append, List.mem_singleton] at hd
      rcases hd with (hd | hd) | rfl
      · have hall : ∀ d ∈ "qrt(".toList, meetsLetter 's' d = false := by decide
        exact hall d hd
      · by_contra hmeets
        have hall : ∀ d ∈ "sSſ".toList, isDecimalDigit d = false ∧ d ≠ '.' := by decide
        obtain ⟨hdigit, hpoint⟩ := hall d (eq_of_meetsLetter_s (by simpa using hmeets))
        rcases hn.forall_mem d hd with h | h
        · rw [hdigit] at h
          cases h
        · exact hpoint h
      · rfl

end Roots

/-! ### Both substitutions -/

section Expansion

variable {before : Option Char} {s out : Text} {rests : List Text}

theorem count_slash_of_number {n : Text} (h : IsNumber n) : n.count '/' = 0 :=
  List.count_eq_zero.mpr fun hmem => absurd (h.isShareMark _ hmem) (by decide)

/-- Each percentage that is expanded makes one more quotient. -/
theorem Rewrites.count_percentage (h : Rewrites percentage before s out rests) :
    out.count '/' = s.count '/' + rests.length := by
  induction h with
  | nil => rfl
  | keep _ _ ih =>
    rw [List.count_cons, List.count_cons, ih]
    omega
  | found _ hread _ ih =>
    obtain ⟨n, r, m, rfl, rfl, hn, hof, hm⟩ := exists_of_found hread
    have hsign : r.count '/' = 0 :=
      List.count_eq_zero.mpr fun hmem => absurd (hof.isShareMark _ hmem) (by decide)
    have hconstant : "(".toList.count '/' = 0 ∧ "/100)*".toList.count '/' = 1 := by decide
    simp only [List.count_append, count_slash_of_number hn, hsign, hconstant,
      count_slash_of_number (number?_eq_some hm).2, ih, List.length_cons]
    omega

theorem Rewrites.count_openRoot (h : Rewrites openRoot before s out rests) :
    out.count '/' = s.count '/' := by
  induction h with
  | nil => rfl
  | keep _ _ ih => rw [List.count_cons, List.count_cons, ih]
  | found _ hread _ ih =>
    obtain ⟨word, blanks, n, rfl, rfl, hword, hblanks, hn⟩ := exists_of_found_root hread
    have hpart : (word ++ '(' :: (blanks ++ n)).count '/' = 0 := List.count_eq_zero.mpr fun hmem =>
      absurd (isRootMark_of_mem hword hblanks hn _ hmem) (by decide)
    have hconstant : "sqrt(".toList.count '/' = 0 ∧ ")".toList.count '/' = 0 := by decide
    rw [List.count_append, List.count_append, List.count_append, List.count_append, hpart,
      hconstant.1, hconstant.2, count_slash_of_number hn, ih]

variable (t : Text)

theorem rewrites_percentage :
    Rewrites percentage none t (substitute percentage t) (behind percentage t) :=
  rewrites_substitute cuts_percentage none t

theorem rewrites_openRoot : Rewrites openRoot none t (substitute openRoot t) (behind openRoot t) :=
  rewrites_substitute cuts_openRoot none t

/-- Percentages are left just where rests are dangling. -/
theorem finds_expandSigns : finds percentage (expandSigns t) = true ↔
    ∃ rest ∈ behind percentage t, Dangling rest := by
  rw [finds_percentage]
  constructor
  · rintro ⟨p, hin, hp⟩
    exact (rewrites_percentage t).exists_dangling hp
      ((rewrites_openRoot _).infix_of_rewritten hp hin)
  · intro hdangling
    obtain ⟨p, hin, hp⟩ := (rewrites_percentage t).exists_share hdangling
    have hkept := (rewrites_openRoot _).infix_of_product hp hin
    exact ⟨p, (List.suffix_cons '*' p).isInfix.trans hkept, hp⟩

/-- Signs that have a percentage among them change when they are expanded. -/
theorem expandSigns_ne_self (h : finds percentage t = true) : expandSigns t ≠ t := by
  intro heq
  have hcount : (expandSigns t).count '/' = t.count '/' + (behind percentage t).length := by
    rw [expandSigns, (rewrites_openRoot _).count_openRoot, (rewrites_percentage t).count_percentage]
  have hnone : behind percentage t = [] := by
    rw [heq] at hcount
    exact List.length_eq_zero_iff.mp (by omega)
  have hfinds := (hnone ▸ rewrites_percentage t).findsFrom_eq_false
  rw [finds] at h
  rw [h] at hfinds
  cases hfinds

/-- Signs among which no percentage is left do not change any more. -/
theorem expandSigns_expandSigns (h : finds percentage (expandSigns t) = false) :
    expandSigns (expandSigns t) = expandSigns t := by
  have hopen : findsFrom openRoot none (expandSigns t) = false := by
    rw [← Bool.not_eq_true, ← finds, finds_openRoot]
    rintro ⟨u, hu, hopens⟩
    exact (rewrites_openRoot _).not_opensRoot hu hopens
  calc expandSigns (expandSigns t)
      = substitute openRoot (expandSigns t) := congrArg _ (substituteFrom_eq_self h)
    _ = expandSigns t := substituteFrom_eq_self hopen

/-- The signs of a text are expanded for good, and no percentage of a number is left, just where none
of the percentages that are found is followed by a dangling rest: where the number that it is of is no
percentage itself, of a number that starts none. -/
theorem fixed_expandSigns :
    (expandSigns (expandSigns t) = expandSigns t ↔ ∀ rest ∈ behind percentage t, ¬Dangling rest) ∧
      (finds percentage (expandSigns t) = false ↔ ∀ rest ∈ behind percentage t, ¬Dangling rest) := by
  have hleft : finds percentage (expandSigns t) = false ↔
      ∀ rest ∈ behind percentage t, ¬Dangling rest := by
    rw [← Bool.not_eq_true, finds_expandSigns]
    simp
  refine ⟨⟨fun hfixed => ?_, fun hnone => expandSigns_expandSigns t (hleft.mpr hnone)⟩, hleft⟩
  rw [← hleft, ← Bool.not_eq_true]
  exact fun hfinds => expandSigns_ne_self _ hfinds hfixed

/-- In a chain of percentages each takes the number that the next one would start with. -/
theorem not_fixed_expandSigns :
    expandSigns "10% of 20% of 30" = "(10/100)*20% of 30".toList ∧
      expandSigns (expandSigns "10% of 20% of 30") = "(10/100)*(20/100)*30".toList ∧
      expandSigns "10% of 20% of 30% of 40" = "(10/100)*20% of (30/100)*40".toList ∧
      ¬∀ t, expandSigns (expandSigns t) = expandSigns t := by
  have hfirst : expandSigns "10% of 20% of 30" = "(10/100)*20% of 30".toList := by decide +kernel
  have hsecond : expandSigns "(10/100)*20% of 30" = "(10/100)*(20/100)*30".toList := by
    decide +kernel
  refine ⟨hfirst, by rw [hfirst]; exact hsecond, by decide +kernel, fun h => ?_⟩
  have hfixed := h "10% of 20% of 30"
  rw [hfirst] at hfixed
  exact absurd (hsecond.symm.trans hfixed) (by decide)

end Expansion

end Reckoner
