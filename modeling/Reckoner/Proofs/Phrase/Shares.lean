import Mathlib.Data.List.Basic
import Reckoner.Proofs.Expression.Lexemes
import Reckoner.Proofs.Phrase.Chains
import Reckoner.Proofs.Phrase.Transparency

/-! Percentages of the numbers that the scanner reads.  The rewriting has its own numbers, in which
a point stands between two digits, while in those of the scanner it may also stand first or last.  So
a percentage is expanded if the first number starts and ends with a digit and the second one starts
with one.  Else a part of it is left beside its expansion, or all of it is left, and there is no
value. -/

namespace Reckoner

/-- What stands for `n % of m`. -/
def expansion (n m : Text) : Text := "(" ++ n ++ "/100)*" ++ m

/-- The text is `n % of m`, with white space around its parts or none. -/
def WrittenShare (n m s : Text) : Prop :=
  ∃ lead r tail, s = lead ++ (n ++ (r ++ (m ++ tail))) ∧ (∀ c ∈ lead ++ tail, isBlank c = true) ∧
    PercentOf r []

/-- The text is `n percent of m` or `n per cent of m`, with the words in any case and white space
between neighbours. -/
def SpokenShare (n m s : Text) : Prop :=
  ∃ sign ∈ ["percent of", "per cent of"],
    (Text.words s).map (List.map Char.toLower) = n :: (Text.words sign ++ [m])

/-- What stands in front of the percent sign is a number for the rewriting, and what the percentage
is of starts with one. -/
def Expands (n m : Text) : Prop := IsNumber n ∧ ∃ d ∈ m.head?, isDecimalDigit d = true

/-- The percentage is expanded, or there is no value if it cannot be. -/
structure Expanded (n m out : Text) : Prop where
  eq_expansion : Expands n m → out = expansion n m
  no_value : ¬Expands n m → ∀ degrees value, evaluate degrees out ≠ .ok value

/-! ### Numbers of the scanner -/

section Operands

variable {n m rest tail : Text} {a b : Double}

theorem isDecimalDigit_of_isDigit {c : Char} (h : c.isDigit = true) : isDecimalDigit c = true := by
  rw [isDecimalDigit_of_isPlain (isPlain_of_isAlphanum (isAlphanum_of_isDigit h)), h]

/-- A number of the scanner is one of the rewriting, or its point is its last character or its
first. -/
theorem operand_cases (h : Lexeme n (.number a)) : IsNumber n ∨
    (∃ whole, n = whole ++ ['.'] ∧ whole ≠ [] ∧ ∀ c ∈ whole, isDecimalDigit c = true) ∨
    ∃ fraction, n = '.' :: fraction ∧ IsNumber fraction := by
  cases h with
  | whole hne h => exact .inl ⟨n, hne, fun c hc => isDecimalDigit_of_isDigit (h c hc), .inl rfl⟩
  | @pointed whole fraction _ hne h =>
    have hdigits := fun c hc => isDecimalDigit_of_isDigit (h c hc)
    obtain ⟨hwhole, hfraction⟩ := List.forall_mem_append.mp hdigits
    by_cases hf : fraction = []
    · subst hf
      exact .inr (.inl ⟨whole, rfl, by simpa using hne, hwhole⟩)
    · by_cases hw : whole = []
      · subst hw
        exact .inr (.inr ⟨fraction, rfl, fraction, hf, hfraction, .inl rfl⟩)
      · exact .inl ⟨whole, hw, hwhole, .inr ⟨fraction, hf, hfraction, rfl⟩⟩

theorem isNumeral_of_lexeme (h : Lexeme n (.number a)) : IsNumeral n := by
  cases h with
  | whole hne h => exact ⟨hne, fun c hc => by rw [isNumeral, h c hc, Bool.true_or]⟩
  | pointed hne h =>
    obtain ⟨hwhole, hfraction⟩ := List.forall_mem_append.mp h
    refine ⟨by simp, List.forall_mem_append.mpr ⟨fun c hc => ?_, ?_⟩⟩
    · rw [isNumeral, hwhole c hc, Bool.true_or]
    · refine List.forall_mem_cons.mpr ⟨rfl, fun c hc => ?_⟩
      rw [isNumeral, hfraction c hc, Bool.true_or]

/-- A point without a digit behind it does not belong to a number of the rewriting. -/
theorem number?_point {whole : Text} (hne : whole ≠ [])
    (hwhole : ∀ c ∈ whole, isDecimalDigit c = true)
    (hrest : ∀ c ∈ rest.head?, isDecimalDigit c = false) :
    number? (whole ++ '.' :: rest) = some (whole, '.' :: rest) := by
  have hpoint : ∀ c ∈ ('.' :: rest).head?, isDecimalDigit c = false := by
    rintro _ ⟨⟩
    decide
  obtain ⟨htake, hdrop⟩ := takeWhile_run hwhole hpoint
  have hfraction := (takeWhile_run (List.forall_mem_nil _) hrest).1
  rw [List.nil_append] at hfraction
  rw [number?]
  simp only [htake, hdrop, hfraction, List.isEmpty_eq_false_iff.mpr hne, List.isEmpty_nil,
    Bool.false_eq_true, if_false, if_true]

/-- Of a number of the scanner that starts with a digit the rewriting takes all but a point at its
end. -/
theorem exists_number? (h : Lexeme m (.number b)) (hhead : ∃ d ∈ m.head?, isDecimalDigit d = true)
    (htail : ∀ c ∈ tail.head?, isBlank c = true) : ∃ k rest, m = k ++ rest ∧
      number? (m ++ tail) = some (k, rest ++ tail) ∧ ∀ c ∈ rest, c = '.' := by
  rcases operand_cases h with hm | ⟨whole, rfl, hne, hwhole⟩ | ⟨fraction, rfl, -⟩
  · refine ⟨m, [], (List.append_nil m).symm, number?_append hm fun c hc => ?_, List.forall_mem_nil _⟩
    refine ⟨isDecimalDigit_of_isBlank (htail c hc), ?_⟩
    rintro rfl
    exact absurd (htail '.' hc) (by decide)
  · refine ⟨whole, ['.'], rfl, ?_, by simp⟩
    rw [List.append_assoc]
    exact number?_point hne hwhole fun c hc => isDecimalDigit_of_isBlank (htail c hc)
  · obtain ⟨d, hd, hdigit⟩ := hhead
    obtain rfl := Option.some.inj hd
    cases hdigit

end Operands

/-! ### Percentages that are expanded -/

section Expansions

variable {lead n r m s rest : Text}

theorem substitute_percentage (hlead : ∀ c ∈ lead, isDecimalDigit c = false) (hn : IsNumber n)
    (hof : PercentOf r []) (hm : number? s = some (m, rest))
    (hrest : ∀ c ∈ rest, isDecimalDigit c = false) :
    substitute percentage (lead ++ (n ++ (r ++ s))) = lead ++ (expansion n m ++ rest) := by
  have hnone {run : Text} (hrun : ∀ c ∈ run, isDecimalDigit c = false) (before : Option Char)
      (more : Text) : substituteFrom percentage 0 before (run ++ more) =
        run ++ substituteFrom percentage 0 (lastOr before run) more :=
    (substituteFrom_run percentage (p := fun _ => True)
      (fun c hc => ⟨trivial, fun before s _ => percentage_cons_eq_none (hrun c hc) before s⟩)
      trivial more).1
  obtain ⟨rfl, -⟩ := number?_eq_some hm
  have hread (before : Option Char) : percentage before (n ++ (r ++ (m ++ rest))) =
      some (.upTo (expansion n m) (n ++ (r ++ (m ++ rest))) rest) :=
    percentage_eq_some.mpr ⟨n, _, _, m, rest, rfl, hn, hof.append (m ++ rest), hm, rfl⟩
  obtain ⟨d, n, rfl, -⟩ := hn.exists_cons
  have hfound (before : Option Char) :
      substituteFrom percentage 0 before (d :: (n ++ (r ++ (m ++ rest)))) = expansion (d :: n) m ++
        substituteFrom percentage 0 (lastOr before (d :: (n ++ (r ++ m)))) rest :=
    (substituteFrom_found (by simp) (List.cons_ne_nil _ _) (hread before)).1
  have hkept (before : Option Char) : substituteFrom percentage 0 before rest = rest := by
    have hrun := hnone hrest before []
    rwa [List.append_nil, substituteFrom, List.append_nil] at hrun
  rw [substitute, hnone hlead, List.cons_append, hfound, hkept]

theorem substitute_openRoot (h : ∀ c ∈ s, meetsLetter 's' c = false) :
    substitute openRoot s = s := by
  refine substitute_eq_self fun before t ht => ?_
  cases t with
  | nil => rfl
  | cons c t => exact openRoot_eq_none (h c (ht.mem (.head _))) before t

theorem isShareMark_of_blank_or_point (h : ∀ c ∈ s, isBlank c = true ∨ c = '.') :
    ∀ c ∈ s, isDecimalDigit c = false ∧ isShareMark c = true := by
  intro c hc
  rcases h c hc with hblank | rfl
  · exact ⟨isDecimalDigit_of_isBlank hblank, by simp [isShareMark, hblank]⟩
  · decide

/-- A percentage of numbers of the rewriting is expanded, whatever points stand around it. -/
theorem expandSigns_share (hlead : ∀ c ∈ lead, isBlank c = true ∨ c = '.') (hn : IsNumber n)
    (hof : PercentOf r []) (hm : number? s = some (m, rest))
    (hrest : ∀ c ∈ rest, isBlank c = true ∨ c = '.') :
    expandSigns (lead ++ (n ++ (r ++ s))) = lead ++ (expansion n m ++ rest) := by
  have hlead := isShareMark_of_blank_or_point hlead
  have hrest := isShareMark_of_blank_or_point hrest
  rw [expandSigns, substitute_percentage (fun c hc => (hlead c hc).1) hn hof hm
    fun c hc => (hrest c hc).1]
  refine substitute_openRoot fun c hc => ?_
  simp only [expansion, List.mem_append] at hc
  rcases hc with hc | (((hc | hc) | hc) | hc) | hc
  · exact meetsLetter_of_isShareMark (hlead c hc).2
  · have hall : ∀ c ∈ "(".toList, meetsLetter 's' c = false := by decide
    exact hall c hc
  · exact meetsLetter_of_isShareMark (hn.isShareMark c hc)
  · have hall : ∀ c ∈ "/100)*".toList, meetsLetter 's' c = false := by decide
    exact hall c hc
  · exact meetsLetter_of_isShareMark ((number?_eq_some hm).2.isShareMark c hc)
  · exact meetsLetter_of_isShareMark (hrest c hc).2

end Expansions

/-! ### Percentages that are not expanded -/

section Remains

variable {lead r s : Text} {degrees : Bool} {value : Double}

/-- A percentage of a number that is left has no value: no name has its letters. -/
theorem evaluate_percentOf (hof : PercentOf r s) (before : Text) :
    evaluate degrees (before ++ r) ≠ .ok value := by
  intro h
  obtain ⟨gap, gap', word, gap'', rfl, -, hword⟩ := hof
  have hread : Text.afterWord? (word ++ (gap'' ++ s)) "of" = some (gap'' ++ s) :=
    afterWord?_eq_some.mpr ⟨word, rfl, hword⟩
  rw [afterWord?_eq_none h (by decide +kernel) ⟨before ++ (gap ++ '%' :: gap'), by simp⟩] at hread
  cases hread

/-- A point in front of a parenthesis is read as nothing. -/
theorem evaluate_point (hlead : ∀ c ∈ lead, isBlank c = true) (s : Text) :
    evaluate degrees (lead ++ '.' :: '(' :: s) ≠ .ok value := by
  intro h
  obtain ⟨tokens, -, hscan, -⟩ := evaluate_eq_ok.mp h
  have hnormal : normalized (lead ++ '.' :: '(' :: s) = '.' :: '(' :: normalized s := by
    rw [normalized_append, normalized_of_isBlank hlead, normalized_cons, normalized_cons]
    rfl
  rw [hnormal, scan, scanFrom_unexpected (by decide) rfl (by decide) rfl rfl] at hscan
  cases hscan

/-- What stands in front of white space at the end of a text, if it does not end with white space
itself. -/
theorem eq_of_append_blanks {a a' gap gap' : Text} (h : a ++ gap = a' ++ gap')
    (hgap : ∀ c ∈ gap, isBlank c = true) (hgap' : ∀ c ∈ gap', isBlank c = true)
    (ha : ∀ c ∈ a.getLast?, isBlank c = false) (ha' : ∀ c ∈ a'.getLast?, isBlank c = false) :
    a = a' := by
  have hreverse := congrArg List.reverse h
  rw [List.reverse_append, List.reverse_append] at hreverse
  have hsplit := run_unique hreverse (fun c hc => hgap c (List.mem_reverse.mp hc))
    (fun c hc => ha c (by rwa [List.head?_reverse] at hc))
    (fun c hc => hgap' c (List.mem_reverse.mp hc))
    fun c hc => ha' c (by rwa [List.head?_reverse] at hc)
  exact List.reverse_inj.mp hsplit.2

end Remains

/-! ### Written percentages -/

theorem isShareMark_of_isNumeral {c : Char} (h : isNumeral c = true) : isShareMark c = true := by
  rw [isNumeral, Bool.or_eq_true, beq_iff_eq] at h
  rcases h with h | rfl
  · simp [isShareMark, isDecimalDigit_of_isDigit h]
  · rfl

section Numerals

variable {lead n r m t tail : Text} (hn : IsNumeral n) (hm : IsNumeral m)
  (hblank : ∀ c ∈ lead ++ tail, isBlank c = true) (hof : PercentOf r [])
include hn hm hblank hof

theorem isShareMark_of_written : ∀ c ∈ lead ++ (n ++ (r ++ (m ++ tail))), isShareMark c = true := by
  have hblank : ∀ c ∈ lead ++ tail, isShareMark c = true := fun c hc => by
    simp [isShareMark, hblank c hc]
  simp only [List.forall_mem_append] at hblank ⊢
  exact ⟨hblank.1, fun c hc => isShareMark_of_isNumeral (hn.2 c hc), hof.isShareMark,
    fun c hc => isShareMark_of_isNumeral (hm.2 c hc), hblank.2⟩

/-- A percentage is found only between digits beside its sign. -/
theorem ends_of_found {before : Option Char} {found : Found}
    (ht : t <:+ lead ++ (n ++ (r ++ (m ++ tail)))) (h : percentage before t = some found) :
    (∃ d ∈ n.getLast?, isDecimalDigit d = true) ∧ ∃ d ∈ m.head?, isDecimalDigit d = true := by
  obtain ⟨n', r', u, k, rest, rfl, hn', ⟨gap₁, gap₂, word', gap₃, rfl, hblanks', hword'⟩, hk, -⟩ :=
    percentage_eq_some.mp h
  obtain ⟨a, ha⟩ := ht
  obtain ⟨gap, gap', word, gap'', rfl, hblanks, hword⟩ := hof
  simp only [List.forall_mem_append] at hblank hblanks hblanks'
  -- The text has one percent sign, so both ways to cut it at one are the same.
  have hsplit : (lead ++ (n ++ gap)) ++ '%' :: (gap' ++ (word ++ (gap'' ++ (m ++ tail)))) =
      (a ++ (n' ++ gap₁)) ++ '%' :: (gap₂ ++ (word' ++ (gap₃ ++ u))) := by
    simpa using ha.symm
  have hsign {blanks : Text} (hb : ∀ c ∈ blanks, isBlank c = true) : '%' ∉ blanks := fun hmem =>
    absurd (hb _ hmem) (by decide)
  have hsign' {k : Text} (hk : IsNumeral k) : '%' ∉ k := fun hmem =>
    absurd (hk.2 _ hmem) (by decide)
  have hleft : '%' ∉ lead ++ (n ++ gap) := by
    simp only [List.mem_append, not_or]
    exact ⟨hsign hblank.1, hsign' hn, hsign hblanks.1⟩
  have hright : '%' ∉ gap' ++ (word ++ (gap'' ++ (m ++ tail))) := by
    simp only [List.mem_append, not_or]
    refine ⟨hsign hblanks.2.1, fun hmem => ?_, hsign hblanks.2.2, hsign' hm, hsign hblank.2⟩
    exact absurd ((letter_of_meets hword).2 _ hmem) (by decide)
  obtain ⟨hbefore, -, hafter⟩ := (List.append_cons_inj_of_notMem hleft hright).mp hsplit
  constructor
  · obtain ⟨k', d, rfl, hd⟩ := hn'.getLast
    have hlast : (lead ++ n).getLast? = n.getLast? := List.getLast?_append_of_ne_nil _ hn.1
    have hbefore : (lead ++ n) ++ gap = (a ++ (k' ++ [d])) ++ gap₁ := by simpa using hbefore
    have heq : lead ++ n = a ++ (k' ++ [d]) := by
      refine eq_of_append_blanks hbefore hblanks.1 hblanks'.1 (fun c hc => ?_) fun c hc => ?_
      · rw [hlast] at hc
        exact isBlank_of_isNumeral (hn.2 c (List.mem_of_mem_getLast? hc))
      · rw [← List.append_assoc, List.getLast?_concat] at hc
        obtain rfl := Option.some.inj hc
        exact isBlank_of_isDecimalDigit hd
    refine ⟨d, ?_, hd⟩
    rw [← hlast, heq, ← List.append_assoc, List.getLast?_concat]
    rfl
  · obtain ⟨c, m, rfl⟩ := List.exists_cons_of_ne_nil hm.1
    have hc : isBlank c = false := isBlank_of_isNumeral (hm.2 c (.head _))
    obtain ⟨d, hd, hdigit⟩ := isSome_number?.mp (Option.isSome_iff_exists.mpr ⟨_, hk⟩)
    obtain ⟨-, hwords⟩ := run_unique hafter hblanks.2.1 (isBlank_of_meets hword _) hblanks'.2.1
      (isBlank_of_meets hword' _)
    obtain ⟨-, hnumbers⟩ := List.append_inj hwords (hword.length_eq.symm.trans hword'.length_eq)
    obtain ⟨-, rfl⟩ := run_unique hnumbers hblanks.2.2 (by rintro _ ⟨⟩; exact hc) hblanks'.2.2
      fun e he => by
        obtain rfl := Option.some.inj (hd.symm.trans he)
        exact isBlank_of_isDecimalDigit hdigit
    obtain rfl := Option.some.inj hd
    exact ⟨c, rfl, hdigit⟩

/-- A percentage with no digit on one side of its sign is left. -/
theorem expandSigns_left (hends : (∃ d ∈ n.getLast?, isDecimalDigit d = true) →
      ¬∃ d ∈ m.head?, isDecimalDigit d = true) :
    expandSigns (lead ++ (n ++ (r ++ (m ++ tail)))) = lead ++ (n ++ (r ++ (m ++ tail))) := by
  have hpercentage : substitute percentage (lead ++ (n ++ (r ++ (m ++ tail)))) =
      lead ++ (n ++ (r ++ (m ++ tail))) := substitute_eq_self fun before t ht => by
    cases h : percentage before t with
    | none => rfl
    | some found =>
      obtain ⟨hlast, hhead⟩ := ends_of_found hn hm hblank hof ht h
      exact absurd hhead (hends hlast)
  rw [expandSigns, hpercentage]
  exact substitute_openRoot fun c hc =>
    meetsLetter_of_isShareMark (isShareMark_of_written hn hm hblank hof c hc)

end Numerals

section Operands

variable {lead n r m s tail : Text} {a b : Double} (hn : Lexeme n (.number a))
  (hm : Lexeme m (.number b)) (hblank : ∀ c ∈ lead ++ tail, isBlank c = true) (hof : PercentOf r [])

section Cases

variable (hs : s = lead ++ (n ++ (r ++ (m ++ tail))))
include hn hm hblank hof hs

/-- A percentage is expanded, or that of the fraction of its first number is, or it is left. -/
theorem expandSigns_written :
    (Expands n m ∧ expandSigns s = lead ++ (expansion n m ++ tail)) ∨
      ¬Expands n m ∧ ((∃ f, n = '.' :: f ∧ expandSigns s = lead ++ '.' :: (expansion f m ++ tail)) ∨
        expandSigns s = s) := by
  subst hs
  have hleft := expandSigns_left (isNumeral_of_lexeme hn) (isNumeral_of_lexeme hm) hblank hof
  obtain ⟨hlead, htail⟩ := List.forall_mem_append.mp hblank
  by_cases hhead : ∃ d ∈ m.head?, isDecimalDigit d = true
  · obtain ⟨k, rest, rfl, hk, hrest⟩ :=
      exists_number? hm hhead fun c hc => htail c (List.mem_of_mem_head? hc)
    have hrest : ∀ c ∈ rest ++ tail, isBlank c = true ∨ c = '.' := List.forall_mem_append.mpr
      ⟨fun c hc => .inr (hrest c hc), fun c hc => .inl (htail c hc)⟩
    rcases operand_cases hn with hnumber | ⟨whole, rfl, -⟩ | ⟨f, rfl, hf⟩
    · have hexpand := expandSigns_share (fun c hc => .inl (hlead c hc)) hnumber hof hk hrest
      exact .inl ⟨⟨hnumber, hhead⟩, hexpand.trans (by simp [expansion])⟩
    · refine .inr ⟨fun hexpands => ?_, .inr (hleft ?_)⟩
      · obtain ⟨k, d, heq, hd⟩ := hexpands.1.getLast
        obtain rfl : '.' = d := by simpa using (List.append_inj' heq rfl).2
        cases hd
      · rintro ⟨d, hd, hdigit⟩
        rw [List.getLast?_concat] at hd
        obtain rfl := Option.some.inj hd
        cases hdigit
    · refine .inr ⟨fun hexpands => ?_, .inl ⟨f, rfl, ?_⟩⟩
      · obtain ⟨d, f, heq, hd⟩ := hexpands.1.exists_cons
        obtain ⟨rfl, -⟩ := List.cons.inj heq
        cases hd
      · have hlead : ∀ c ∈ lead ++ ['.'], isBlank c = true ∨ c = '.' := List.forall_mem_append.mpr
          ⟨fun c hc => .inl (hlead c hc), by simp⟩
        have hexpand := expandSigns_share hlead hf hof hk hrest
        simpa [expansion] using hexpand
  · exact .inr ⟨fun hexpands => hhead hexpands.2, .inr (hleft fun _ => hhead)⟩

/-- What is left of a percentage that is not expanded has no value. -/
theorem evaluate_written (hnot : ¬Expands n m) (degrees : Bool) (value : Double) :
    evaluate degrees (expandSigns s) ≠ .ok value := by
  rcases expandSigns_written hn hm hblank hof hs with ⟨hexpands, -⟩ | ⟨-, ⟨f, -, heq⟩ | heq⟩
  · exact absurd hexpands hnot
  · rw [heq]
    exact evaluate_point (List.forall_mem_append.mp hblank).1 _
  · rw [heq, hs, ← List.append_assoc]
    exact evaluate_percentOf (hof.append (m ++ tail)) _

end Cases

include hn hm hof in
theorem expanded_written : Expanded n m (expandSigns (n ++ (r ++ m))) := by
  have hs : n ++ (r ++ m) = [] ++ (n ++ (r ++ (m ++ []))) := by simp
  have hblank : ∀ c ∈ ([] : Text) ++ [], isBlank c = true := List.forall_mem_nil _
  refine ⟨fun hexpands => ?_, evaluate_written hn hm hblank hof hs⟩
  rcases expandSigns_written hn hm hblank hof hs with ⟨-, heq⟩ | ⟨hnot, -⟩
  · simpa using heq
  · exact absurd hexpands hnot

end Operands

/-! ### Answers -/

section Answers

variable {lead n r m s tail : Text} {a b : Double}

theorem stripped_written (hn : IsNumeral n) (hm : IsNumeral m)
    (hblank : ∀ c ∈ lead ++ tail, isBlank c = true) (r : Text) :
    Text.stripped (lead ++ (n ++ (r ++ (m ++ tail)))) = n ++ (r ++ m) := by
  obtain ⟨hlead, htail⟩ := List.forall_mem_append.mp hblank
  have hfirst : ∀ c ∈ (n ++ (r ++ m)).head?, isBlank c = false := fun c hc => by
    rw [List.head?_append_of_ne_nil _ hn.1] at hc
    exact isBlank_of_isNumeral (hn.2 c (List.mem_of_mem_head? hc))
  have hlast : ∀ c ∈ (n ++ (r ++ m)).getLast?, isBlank c = false := fun c hc => by
    rw [← List.append_assoc, List.getLast?_append_of_ne_nil _ hm.1] at hc
    exact isBlank_of_isNumeral (hm.2 c (List.mem_of_mem_getLast? hc))
  rw [show lead ++ (n ++ (r ++ (m ++ tail))) = lead ++ ((n ++ (r ++ m)) ++ tail) by simp]
  exact trimmed_append hlead htail hfirst hlast

theorem exists_answer (hn : Lexeme n (.number a)) (hm : Lexeme m (.number b))
    (h : WrittenShare n m s) (hline : ∀ c ∈ s.stripped, isLineEnd c = false) :
    ∃ out, answerExpression s = .ok out ∧ Expanded n m out := by
  obtain ⟨lead, r, tail, rfl, hblank, hof⟩ := h
  have hnumeral := isNumeral_of_lexeme hn
  have hnumeral' := isNumeral_of_lexeme hm
  have hmark := isShareMark_of_written hnumeral hnumeral' hblank hof
  have hnot {c : Char} (hc : isShareMark c = false) : c ∉ lead ++ (n ++ (r ++ (m ++ tail))) := by
    intro hmem
    rw [hmark c hmem] at hc
    cases hc
  obtain ⟨c, hc⟩ := List.exists_mem_of_ne_nil n hnumeral.1
  have hspaced : c ∈ Text.unspaced (lead ++ (n ++ (r ++ (m ++ tail)))) := by
    rw [Text.unspaced, List.mem_filter]
    exact ⟨by simp [hc], by rw [isBlank_of_isNumeral (hnumeral.2 c hc)]; rfl⟩
  have hstripped := stripped_written hnumeral hnumeral' hblank r
  have hself : Text.stripped (n ++ (r ++ m)) = n ++ (r ++ m) := by
    have hbare : ∀ c ∈ ([] : Text) ++ [], isBlank c = true := List.forall_mem_nil _
    simpa using stripped_written hnumeral hnumeral' hbare r
  have hanswer := answerExpression_of_not_mem (hnot (by decide)) (hnot (by decide))
    (List.ne_nil_of_mem hspaced) hline
  rw [hstripped, hself, hself] at hanswer
  exact ⟨_, hanswer, expanded_written hn hm hof⟩

end Answers

/-! ### Spoken requests -/

/-- The characters of a percentage in small letters and of its expansion. -/
def IsExpansionMark (c : Char) : Prop := IsSmall c ∧ (isShareMark c = true ∨ c ∈ "(/)*".toList)

instance (c : Char) : Decidable (IsExpansionMark c) :=
  inferInstanceAs (Decidable (IsSmall c ∧ (isShareMark c = true ∨ c ∈ "(/)*".toList)))

section Marks

variable {n m s : Text}

theorem isExpansionMark_of_isBlank {c : Char} (h : isBlank c = true) : IsExpansionMark c :=
  ⟨isSmall_of_isBlank h, .inl (by simp [isShareMark, h])⟩

theorem IsNumeral.isExpansionMark (h : IsNumeral n) : ∀ c ∈ n, IsExpansionMark c := fun c hc =>
  ⟨h.isSmall c hc, .inl (isShareMark_of_isNumeral (h.2 c hc))⟩

theorem isExpansionMark_expansion (hn : ∀ c ∈ n, IsExpansionMark c)
    (hm : ∀ c ∈ m, IsExpansionMark c) : ∀ c ∈ expansion n m, IsExpansionMark c := by
  have hconstant : (∀ c ∈ "(".toList, IsExpansionMark c) ∧
      ∀ c ∈ "/100)*".toList, IsExpansionMark c := by
    decide +kernel
  simp only [expansion, List.forall_mem_append]
  exact ⟨⟨⟨hconstant.1, hn⟩, hconstant.2⟩, hm⟩

/-- The first word of each phrase has a letter that neither a percentage nor its expansion has. -/
theorem exists_letter_of_spelling : ∀ rule ∈ fillers :: Rule.all, ∀ spelling ∈ rule.spellings,
    ∀ word ∈ spelling.head?, ∃ c ∈ word, ¬IsExpansionMark c := by
  decide +kernel

theorem exists_letter_of_name (f : Function) : ∃ c ∈ f.name, ¬IsExpansionMark c := by
  cases f <;> decide +kernel

variable (h : ∀ c ∈ s, IsExpansionMark c)
include h

theorem apply_of_marks {rule : Rule} (hrule : rule ∈ fillers :: Rule.all) : rule.apply s = s := by
  refine substitute_eq_self fun before t ht => ?_
  refine Rule.reader_eq_none (Rule.spelled_of_mem rule hrule) (fun c hc => (h c (ht.mem hc)).1) ?_
  intro spelling hspelling word hword hstart
  obtain ⟨c, hc, hnot⟩ := exists_letter_of_spelling rule hrule spelling hspelling word hword
  exact hnot (h c (ht.mem (hstart.mem hc)))

theorem applyRules_of_marks : applyRules Rule.all s = s :=
  applyRules_of_forall fun _ hrule => apply_of_marks h (.tail _ hrule)

theorem substitute_bareCall_of_marks : substitute bareCall s = s := by
  refine substitute_eq_self fun before t ht => ?_
  cases hcall : bareCall before t with
  | none => rfl
  | some found =>
    obtain ⟨f, rest, rfl, -⟩ := exists_name_of_bareCall (fun c hc => (h c (ht.mem hc)).1) hcall
    obtain ⟨c, hc, hnot⟩ := exists_letter_of_name f
    exact absurd (h c (ht.mem (List.mem_append_left rest hc))) hnot

end Marks

section Spoken

variable {n m s t : Text} {a b : Double}

theorem isExpansionMark_of_written (hn : IsNumeral n) (hm : IsNumeral m) (h : WrittenShare n m t)
    (hsmall : ∀ c ∈ t, IsSmall c) : ∀ c ∈ t, IsExpansionMark c := by
  obtain ⟨lead, r, tail, rfl, hblank, hof⟩ := h
  exact fun c hc => ⟨hsmall c hc, .inl (isShareMark_of_written hn hm hblank hof c hc)⟩

/-- The signs of a written percentage are expanded to no other characters. -/
theorem isExpansionMark_expandSigns (hn : Lexeme n (.number a)) (hm : Lexeme m (.number b))
    (h : WrittenShare n m t) (hsmall : ∀ c ∈ t, IsSmall c) :
    ∀ c ∈ expandSigns t, IsExpansionMark c := by
  have hnumeral := isNumeral_of_lexeme hn
  have hnumeral' := isNumeral_of_lexeme hm
  have hmarks := isExpansionMark_of_written hnumeral hnumeral' h hsmall
  obtain ⟨lead, r, tail, ht, hblank, hof⟩ := h
  have hblank' : ∀ c ∈ lead ++ tail, IsExpansionMark c := fun c hc =>
    isExpansionMark_of_isBlank (hblank c hc)
  obtain ⟨hlead, htail⟩ := List.forall_mem_append.mp hblank'
  rcases expandSigns_written hn hm hblank hof ht with ⟨-, heq⟩ | ⟨-, ⟨f, rfl, heq⟩ | heq⟩
  · rw [heq, List.forall_mem_append, List.forall_mem_append]
    exact ⟨hlead,
      isExpansionMark_expansion hnumeral.isExpansionMark hnumeral'.isExpansionMark, htail⟩
  · obtain ⟨hpoint, hf⟩ := List.forall_mem_cons.mp hnumeral.isExpansionMark
    rw [heq, List.forall_mem_append, List.forall_mem_cons, List.forall_mem_append]
    exact ⟨hlead, hpoint, isExpansionMark_expansion hf hnumeral'.isExpansionMark, htail⟩
  · rw [heq]
    exact hmarks

theorem isSolid_expansion (hn : IsNumeral n) (hm : IsNumeral m) : IsSolid (expansion n m) := by
  refine ⟨by simp [expansion], ?_⟩
  simp only [expansion, List.forall_mem_append]
  exact ⟨⟨⟨by decide, fun c hc => isBlank_of_isNumeral (hn.2 c hc)⟩, by decide⟩,
    fun c hc => isBlank_of_isNumeral (hm.2 c hc)⟩

/-- Where the rules have made a written percentage in small letters, it is expanded as such. -/
theorem expanded_of_ruled (hn : Lexeme n (.number a)) (hm : Lexeme m (.number b))
    (h : WrittenShare n m (applyRules Rule.all (plainRequest s)))
    (hsmall : ∀ c ∈ applyRules Rule.all (plainRequest s), IsSmall c) :
    Expanded n m (spokenExpression s) := by
  rw [spokenExpression]
  generalize applyRules Rule.all (plainRequest s) = t at h hsmall
  have hmarks := isExpansionMark_expandSigns hn hm h hsmall
  rw [substitute_bareCall_of_marks hmarks, apply_of_marks hmarks (.head _)]
  obtain ⟨lead, r, tail, ht, hblank, hof⟩ := h
  refine ⟨fun hexpands => ?_, fun hnot degrees value hvalue => ?_⟩
  · rcases expandSigns_written hn hm hblank hof ht with ⟨-, heq⟩ | ⟨hnot, -⟩
    · obtain ⟨hlead, htail⟩ := List.forall_mem_append.mp hblank
      rw [heq, Text.words_append_left hlead, Text.words_append_right htail,
        Text.words_of_isSolid (isSolid_expansion (isNumeral_of_lexeme hn) (isNumeral_of_lexeme hm))]
      simp [Text.joined]
    · exact absurd hexpands hnot
  · have hexpanded := (evaluate_congr (Text.unspaced_joined_words _)).mp hvalue
    exact evaluate_written hn hm hblank hof ht hnot degrees value hexpanded

/-- The words of a spoken percentage before and after the rules. -/
theorem settled_of_sign : ∀ sign ∈ ["percent of", "per cent of"],
    settled Rule.all (Text.words sign) = ["%".toList, "of".toList] := by
  decide +kernel

theorem fluent_signs : fluent Rule.all
    (["percent of", "per cent of"].map fun sign => Text.words sign.toList) = true := by
  decide +kernel

theorem isSmall_of_mem_sign : ∀ sign ∈ ["percent of", "per cent of"], ∀ word ∈ Text.words sign,
    ∀ c ∈ word, IsSmall c ∧ c ≠ '?' := by
  decide +kernel

/-- A text with these four words is a written percentage. -/
theorem written_of_words (h : t.words = [n, "%".toList, "of".toList, m]) : WrittenShare n m t := by
  obtain ⟨lead, t, rfl, hlead, -, -, h⟩ := Text.exists_of_words h
  obtain ⟨gap, t, rfl, hgap, -, -, h⟩ := Text.exists_of_words h
  obtain ⟨gap', t, rfl, hgap', -, -, h⟩ := Text.exists_of_words h
  obtain ⟨gap'', tail, rfl, hgap'', -, -, h⟩ := Text.exists_of_words h
  have hblanks : ∀ c ∈ gap ++ (gap' ++ gap''), isBlank c = true := by
    simp only [List.forall_mem_append]
    exact ⟨hgap, hgap', hgap''⟩
  refine ⟨lead, gap ++ '%' :: (gap' ++ ("of" ++ gap'')), tail, by simp,
    List.forall_mem_append.mpr ⟨hlead, Text.words_eq_nil_iff.mp h⟩, gap, gap', "of", gap'', by simp,
    hblanks, by decide⟩

/-- The rules make a written percentage of a spoken one. -/
theorem ruled_of_spoken (hn : IsNumeral n) (hm : IsNumeral m) (h : SpokenShare n m s) :
    WrittenShare n m (applyRules Rule.all (plainRequest s)) ∧
      ∀ c ∈ applyRules Rule.all (plainRequest s), IsSmall c := by
  obtain ⟨sign, hsign, hwords⟩ := h
  have hnumber {k : Text} (hk : IsNumeral k) : ∀ c ∈ k, IsSmall c ∧ c ≠ '?' := fun c hc =>
    ⟨hk.isSmall c hc, by rintro rfl; cases hk.2 _ hc⟩
  have hplain : (plainRequest s).words = n :: (Text.words sign ++ [m]) := by
    have hrequest := words_plainRequest hwords ?_ (List.forall_mem_nil _)
    · rwa [List.append_nil] at hrequest
    · rw [List.forall_mem_cons, List.forall_mem_append, List.forall_mem_singleton]
      exact ⟨hnumber hn, isSmall_of_mem_sign sign hsign, hnumber hm⟩
  have hcells : ∀ cell ∈ [[n], Text.words sign, [m]],
      IsCell (["percent of", "per cent of"].map fun sign => Text.words sign.toList) cell := by
    simp only [List.forall_mem_cons]
    exact ⟨.inr ⟨n, rfl, hn⟩, .inl (List.mem_map_of_mem hsign), .inr ⟨m, rfl, hm⟩,
      List.forall_mem_nil _⟩
  have hspelled : ∀ rule ∈ Rule.all, rule.Spelled := fun rule hrule =>
    Rule.spelled_of_mem rule (.tail _ hrule)
  have hruled : (applyRules Rule.all (plainRequest s)).words = [n, "%".toList, "of".toList, m] := by
    rw [words_applyRules hspelled fluent_signs hcells (by simpa using hplain)]
    simp only [List.map_cons, List.map_nil, hn.settled_eq hspelled, hm.settled_eq hspelled,
      settled_of_sign sign hsign]
    rfl
  refine ⟨written_of_words hruled, Text.forall_mem_of_words (fun _ => isSmall_of_isBlank) ?_⟩
  rw [hruled]
  simp only [List.forall_mem_cons]
  exact ⟨hn.isSmall, by decide, by decide, hm.isSmall, List.forall_mem_nil _⟩

/-- In lower case `% of` is as it was. -/
theorem PercentOf.map_toLower {r : Text} (h : PercentOf r []) : PercentOf (r.map Char.toLower) [] ∧
    ∀ c ∈ r.map Char.toLower, IsSmall c ∧ c ≠ '?' := by
  have hsmall : ∀ c ∈ r.map Char.toLower, IsSmall c ∧ c ≠ '?' := by
    refine List.forall_mem_map.mpr fun c hc => ?_
    rcases h.forall_mem c hc with hblank | hletter
    · rw [toLower_of_isCaseless (isCaseless_of_isBlank hblank)]
      exact ⟨isSmall_of_isBlank hblank, by rintro rfl; cases hblank⟩
    · have hall : ∀ c ∈ "%oOfF".toList, IsSmall c.toLower ∧ c.toLower ≠ '?' := by decide
      exact hall c hletter
  refine ⟨?_, hsmall⟩
  obtain ⟨gap, gap', word, gap'', rfl, hblanks, hword⟩ := h
  refine ⟨gap.map Char.toLower, gap'.map Char.toLower, word.map Char.toLower,
    gap''.map Char.toLower, by simp, ?_, ?_⟩
  · rw [← List.map_append, ← List.map_append, List.forall_mem_map]
    exact fun c hc => (isBlank_toLower c).trans (hblanks c hc)
  · exact (meets_map_toLower (by decide)).mpr hword

/-- The rules leave a written percentage. -/
theorem ruled_of_written (hn : IsNumeral n) (hm : IsNumeral m) (h : WrittenShare n m s) :
    WrittenShare n m (applyRules Rule.all (plainRequest s)) ∧
      ∀ c ∈ applyRules Rule.all (plainRequest s), IsSmall c := by
  obtain ⟨lead, r, tail, rfl, hblank, hof⟩ := h
  obtain ⟨hlower, hsmall⟩ := hof.map_toLower
  have hplain : ∀ c ∈ lead ++ (n ++ (r ++ (m ++ tail))), IsPlain c := by
    rw [List.forall_mem_append] at hblank
    simp only [List.forall_mem_append]
    refine ⟨fun c hc => isPlain_of_isBlank (hblank.1 c hc), fun c hc => (hn.isSmall c hc).1,
      fun c hc => ?_, fun c hc => (hm.isSmall c hc).1,
      fun c hc => isPlain_of_isBlank (hblank.2 c hc)⟩
    exact (isPlain_toLower c).mp (hsmall _ (List.mem_map_of_mem hc)).1.1
  have hsame {run : Text} (hrun : ∀ c ∈ run, IsSmall c) : run.map Char.toLower = run := by
    rw [List.map_congr_left fun c hc => (hrun c hc).2, List.map_id']
  have hblankSmall : ∀ c ∈ lead ++ tail, IsSmall c := fun c hc => isSmall_of_isBlank (hblank c hc)
  obtain ⟨hlead, htail⟩ := List.forall_mem_append.mp hblankSmall
  have hmap : (lead ++ (n ++ (r ++ (m ++ tail)))).map Char.toLower =
      lead ++ (n ++ (r.map Char.toLower ++ (m ++ tail))) := by
    simp only [List.map_append, hsame hlead, hsame hn.isSmall, hsame hm.isSmall, hsame htail]
  have hquestion : '?' ∉ lead ++ (n ++ (r.map Char.toLower ++ (m ++ tail))) := fun hmem =>
    absurd (isShareMark_of_written hn hm hblank hlower _ hmem) (by decide)
  have hrequest : plainRequest (lead ++ (n ++ (r ++ (m ++ tail)))) =
      n ++ (r.map Char.toLower ++ m) := by
    rw [plainRequest, lower_eq_map hplain, hmap, List.filter_eq_self.mpr fun c hc => by
      rw [bne_iff_ne]
      rintro rfl
      exact hquestion hc]
    exact stripped_written hn hm hblank _
  have hwritten : WrittenShare n m (n ++ (r.map Char.toLower ++ m)) :=
    ⟨[], r.map Char.toLower, [], by simp, List.forall_mem_nil _, hlower⟩
  have hsmall : ∀ c ∈ n ++ (r.map Char.toLower ++ m), IsSmall c := by
    simp only [List.forall_mem_append]
    exact ⟨hn.isSmall, fun c hc => (hsmall c hc).1, hm.isSmall⟩
  rw [hrequest, applyRules_of_marks (isExpansionMark_of_written hn hm hwritten hsmall)]
  exact ⟨hwritten, hsmall⟩

/-- A percentage of numbers of the scanner, spoken or written in a request or written in an answer
on one line, is expanded if the first number starts and ends with a digit and the second one starts
with a digit.  Else there is no value. -/
theorem expanded_share (hn : Lexeme n (.number a)) (hm : Lexeme m (.number b)) (s : Text) :
    (SpokenShare n m s ∨ WrittenShare n m s → Expanded n m (spokenExpression s)) ∧
      (WrittenShare n m s → (∀ c ∈ s.stripped, isLineEnd c = false) →
        ∃ out, answerExpression s = .ok out ∧ Expanded n m out) := by
  have hnumeral := isNumeral_of_lexeme hn
  have hnumeral' := isNumeral_of_lexeme hm
  refine ⟨fun h => ?_, exists_answer hn hm⟩
  obtain ⟨hruled, hsmall⟩ :=
    h.elim (ruled_of_spoken hnumeral hnumeral') (ruled_of_written hnumeral hnumeral')
  exact expanded_of_ruled hn hm hruled hsmall

/-- A number with a fraction of one with a point at its end. -/
theorem expanded_share_pointed :
    spokenExpression "12.5 PER cent\tof  40. " = "(12.5/100)*40.".toList ∧
      answerExpression "\n 12.5% OF40.\n" = .ok "(12.5/100)*40.".toList := by
  have hn : Lexeme "12.5" (.number (literalValue "12.5")) :=
    lexeme_literal (by decide) (by decide) (by decide)
  have hm : Lexeme "40." (.number (literalValue "40.")) :=
    lexeme_literal (by decide) (by decide) (by decide)
  have hspoken : SpokenShare "12.5" "40." "12.5 PER cent\tof  40. " :=
    ⟨"per cent of", by decide, by decide +kernel⟩
  have hwritten : WrittenShare "12.5" "40." "\n 12.5% OF40.\n" :=
    ⟨"\n ", "% OF", "\n", rfl, by decide, [], " ", "OF", [], rfl, by decide, by decide⟩
  have hexpands : Expands "12.5" "40." :=
    ⟨⟨"12", by decide, by decide, .inr ⟨"5", by decide, by decide, rfl⟩⟩, '4', rfl, by decide⟩
  obtain ⟨out, hanswer, hout⟩ :=
    (expanded_share hn hm "\n 12.5% OF40.\n").2 hwritten (by decide +kernel)
  exact ⟨((expanded_share hn hm _).1 (.inl hspoken)).eq_expansion hexpands,
    hanswer.trans (congrArg _ (hout.eq_expansion hexpands))⟩

/-- A point in front of the first number is left in front of the expansion, and where a point stands
at its end or in front of the second number, the percentage is left. -/
theorem not_expanded_share :
    (spokenExpression ".5 percent of 1000" = ".(5/100)*1000".toList ∧
        evaluate true ".(5/100)*1000" = .error (.lex ⟨.unexpectedCharacter, ".", 0⟩) ∧
        evaluate true (expansion ".5" "1000") = .ok 5) ∧
      (answerExpression "5.% of 200" = .ok "5.% of 200".toList ∧
        evaluate true "5.% of 200" = .error (.eval (.unknownFunction "of200")) ∧
        evaluate true (expansion "5." "200") = .ok 10) ∧
      (answerExpression "200% of .5" = .ok "200% of .5".toList ∧
        evaluate true "200% of .5" = .error (.eval (.unknownFunction "of")) ∧
        evaluate true (expansion "200" ".5") = .ok 1) ∧
      ¬∀ (n m s : Text) (a b : Double), Lexeme n (.number a) → Lexeme m (.number b) →
        SpokenShare n m s → evaluate true (spokenExpression s) = evaluate true (expansion n m) := by
  have hspoken : spokenExpression ".5 percent of 1000" = ".(5/100)*1000".toList := by decide +kernel
  have herror : evaluate true ".(5/100)*1000" = .error (.lex ⟨.unexpectedCharacter, ".", 0⟩) := by
    decide +kernel
  have hvalue : evaluate true (expansion ".5" "1000") = .ok 5 := by decide +kernel
  refine ⟨⟨hspoken, herror, hvalue⟩, ⟨by decide +kernel, by decide +kernel, by decide +kernel⟩,
    ⟨by decide +kernel, by decide +kernel, by decide +kernel⟩, fun h => ?_⟩
  have heq := h ".5" "1000" ".5 percent of 1000" _ _
    (lexeme_literal (by decide) (by decide) (by decide))
    (lexeme_literal (by decide) (by decide) (by decide))
    ⟨"percent of", by decide, by decide +kernel⟩
  rw [hspoken, herror, hvalue] at heq
  cases heq

end Spoken

end Reckoner
