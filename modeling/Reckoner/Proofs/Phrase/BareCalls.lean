import Reckoner.Proofs.Expression.Calls
import Reckoner.Proofs.Expression.Display
import Reckoner.Proofs.Phrase.Accepted

/-! Functions before a bare number.  The rewriting puts the number into parentheses, and the conversion
lets the function wait for it: the two agree on a call where what follows it ends the operand, and they
do not where a power or a suffix follows. -/

namespace Reckoner

section Calls

variable {before : Option Char} {c : Char} {s rest word gap n : Text} {found : Found} {f : Function}

/-! ### What the reader of bare calls finds -/

theorem isLower_name (f : Function) : ∀ a ∈ f.name, a.isLower = true :=
  List.all_eq_true.mp (by cases f <;> decide)

theorem name_ne_nil (f : Function) : f.name ≠ [] := by
  cases f <;> decide

/-- A bare number ends with a word, or a point follows it. -/
theorem wordNumber?_ends (h : wordNumber? s = some (n, rest)) :
    endsWord rest = true ∨ rest.head? = some '.' := by
  have hdrop : s.drop (s.takeWhile isDecimalDigit).length = s.dropWhile isDecimalDigit := by
    conv_lhs => arg 2; rw [← List.takeWhile_append_dropWhile (p := isDecimalDigit) (l := s)]
    exact List.drop_left
  rw [wordNumber?] at h
  simp only [Option.bind_eq_bind, Option.bind_eq_some_iff] at h
  obtain ⟨⟨m, more⟩, hm, h⟩ := h
  split at h
  case isTrue hends =>
    cases h
    exact .inl hends
  case isFalse =>
    split at h
    case isTrue => cases h
    case isFalse hlength =>
      cases h
      rw [number?] at hm
      simp only at hm
      split at hm
      case isTrue => cases hm
      case isFalse =>
        split at hm
        case h_1 more hmore => exact .inr (by rw [hdrop, hmore]; rfl)
        case h_2 =>
          cases hm
          exact absurd rfl hlength

theorem call?_ends {name : Text} (h : call? f s = some (name, n, rest)) :
    endsWord rest = true ∨ rest.head? = some '.' := by
  rw [call?] at h
  simp only [Option.bind_eq_bind, Option.bind_eq_some_iff] at h
  obtain ⟨gap, -, number, -, ⟨m, more⟩, hnumber, h⟩ := h
  cases h
  exact wordNumber?_ends hnumber

/-- A bare call: a function's name in some case, white space, and a number that ends with a word. -/
theorem bareCall_eq_some (h : bareCall before s = some found) :
    ∃ f word gap n rest, s = word ++ (gap ++ (n ++ rest)) ∧
      List.Forall₂ (fun a c => meetsLetter a c = true) (Function.name f) word ∧
      gap ≠ [] ∧ (∀ c ∈ gap, isBlank c = true) ∧ IsNumber n ∧
      (endsWord rest = true ∨ rest.head? = some '.') ∧
      found = .upTo (word ++ "(" ++ n ++ ")") s rest := by
  rw [bareCall] at h
  split at h
  case isFalse => cases h
  case isTrue =>
    obtain ⟨⟨word, n, rest⟩, hcall, rfl⟩ := Option.map_eq_some_iff.mp h
    obtain ⟨f, -, hf⟩ := List.exists_of_findSome?_eq_some hcall
    obtain ⟨c, gap, hs, hc, hgap, hn, hmeets⟩ := call?_eq_some hf
    exact ⟨f, word, c :: gap, n, rest, hs, hmeets, List.cons_ne_nil _ _,
      List.forall_mem_cons.mpr ⟨hc, hgap⟩, hn, call?_ends hf, rfl⟩

/-- Nothing is found within a word. -/
theorem bareCall_of_not_startsWord (h : startsWord before = false) (s : Text) :
    bareCall before s = none :=
  if_neg (Bool.eq_false_iff.mp h)

/-- Nothing is found at a character that is no letter. -/
theorem bareCall_of_not_isAlpha (hplain : IsPlain c) (hc : c.isAlpha = false) (before : Option Char)
    (s : Text) : bareCall before (c :: s) = none := by
  cases h : bareCall before (c :: s) with
  | none => rfl
  | some found =>
    obtain ⟨f, word, gap, n, rest, hs, hmeets, -⟩ := bareCall_eq_some h
    obtain ⟨a, name, hname⟩ := List.exists_cons_of_ne_nil (name_ne_nil f)
    have hlower : a.isLower = true := isLower_name f a (hname ▸ .head _)
    rw [hname] at hmeets
    cases hmeets with
    | cons hmeets _ =>
      obtain ⟨rfl, -⟩ := List.cons.inj hs
      rw [(letter_of_meetsLetter hlower hplain hmeets).2] at hc
      cases hc

/-- A number in plain characters is a literal. -/
theorem IsNumber.isLiteral (h : IsNumber n) (hplain : ∀ c ∈ n, IsPlain c) : IsLiteral n := by
  obtain ⟨whole, hne, hwhole, rfl | ⟨fraction, -, hfraction, rfl⟩⟩ := h
  · exact .whole hne fun c hc => isDecimalDigit_of_isPlain (hplain c hc) ▸ hwhole c hc
  · obtain ⟨hplain, hrest⟩ := List.forall_mem_append.mp hplain
    exact .pointed hne (fun c hc => isDecimalDigit_of_isPlain (hplain c hc) ▸ hwhole c hc)
      fun c hc => isDecimalDigit_of_isPlain (hrest c (.tail _ hc)) ▸ hfraction c hc

/-- In a text that has tokens a bare call is a function's name, white space and a literal. -/
theorem bareCall_of_plain (hplain : ∀ c ∈ s, IsPlain c) (h : bareCall before s = some found) :
    ∃ f word gap n rest, s = word ++ (gap ++ (n ++ rest)) ∧
      word.map Char.toLower = Function.name f ∧ (∀ c ∈ word, c.isAlpha = true) ∧
      gap ≠ [] ∧ (∀ c ∈ gap, isBlank c = true) ∧ IsLiteral n ∧
      (endsWord rest = true ∨ rest.head? = some '.') ∧
      found = .upTo (word ++ "(" ++ n ++ ")") s rest := by
  obtain ⟨f, word, gap, n, rest, rfl, hmeets, hne, hgap, hn, hends, hfound⟩ := bareCall_eq_some h
  simp only [List.forall_mem_append] at hplain
  obtain ⟨hmap, halpha⟩ := letters_of_meets (isLower_name f) hplain.1 hmeets
  exact ⟨f, word, gap, n, rest, rfl, hmap, halpha, hne, hgap, hn.isLiteral hplain.2.2.1, hends, hfound⟩

theorem isWord_of_isAlphanum (h : c.isAlphanum = true) : isWord c = true := by
  have hlt : c.toNat < 128 := by
    have := toNat_of_isAlphanum h
    omega
  rw [isWord, if_pos hlt, h, Bool.true_or]

/-- What follows a bare number is no part of it, if it is no point. -/
theorem isNumeral_of_endsWord (hends : endsWord rest = true ∨ rest.head? = some '.')
    (hpoint : rest.head? ≠ some '.') : ∀ c ∈ rest.head?, isNumeral c = false := by
  cases rest with
  | nil => exact nofun
  | cons c rest =>
    rintro _ ⟨⟩
    have hword : isWord c = false := by simpa [endsWord] using hends.resolve_right hpoint
    by_contra hc
    rcases isNumeral_cases (by simpa using hc) with hc | rfl
    · rw [isWord_of_isAlphanum hc] at hword
      cases hword
    · exact hpoint rfl

end Calls

section Scanning

variable {before : Option Char} {c : Char} {s t rest run word gap n : Text} {position place : ℕ}
  {item : Item} {tokens : List Token} {rests : List Text} {found : Found} {f : Function}

/-! ### The tokens of the text after the rewriting -/

/-- The text `t` has the tokens `tokens` with the numbers of some calls in parentheses; the texts
`rests` follow these calls. -/
def Groups (tokens : List Token) (rests : List Text) (t : Text) : Prop :=
  ∀ place, ∃ tokens' grouped afters, Scanned place t tokens' ∧ itemsOf tokens' = itemsOf grouped ∧
    Calls tokens grouped afters ∧
    List.Forall₂ (fun rest after => ∃ position, Scanned position rest after) rests afters

theorem groups_nil : Groups [] [] [] :=
  fun _ => ⟨[], [], [], .nil, rfl, .nil, .nil⟩

theorem Groups.blank (hc : isBlank (keypadForm c) = true) (h : Groups tokens rests t) :
    Groups tokens rests (c :: t) := by
  intro place
  obtain ⟨tokens', grouped, afters, hscanned, hrest⟩ := h (place + 1)
  exact ⟨tokens', grouped, afters, .blank hc hscanned, hrest⟩

theorem Groups.token (lexeme : Text) (hlexeme : ∀ (place : ℕ) tokens',
      Scanned (place + lexeme.length) t tokens' →
      Scanned place (lexeme ++ t) (⟨item, place⟩ :: tokens'))
    (h : Groups tokens rests t) : Groups (⟨item, position⟩ :: tokens) rests (lexeme ++ t) := by
  intro place
  obtain ⟨tokens', grouped, afters, hscanned, hitems, hcalls, hrests⟩ := h (place + lexeme.length)
  exact ⟨⟨item, place⟩ :: tokens', ⟨item, position⟩ :: grouped, afters,
    hlexeme place tokens' hscanned, congrArg (item :: ·) hitems, .keep hcalls, hrests⟩

theorem Groups.call {first : ℤ} (hword : ∀ c ∈ word, c.isAlpha = true)
    (hname : word.map Char.toLower = f.name) (hn : IsLiteral n)
    (hafter : ∃ position, Scanned position rest tokens) (h : Groups tokens rests t) :
    Groups (⟨.name f.name, position⟩ :: ⟨.number (literalValue n), first⟩ :: tokens) (rest :: rests)
      (word ++ "(" ++ n ++ ")" ++ t) := by
  intro place
  obtain ⟨c, run, rfl⟩ : ∃ c run, word = c :: run := by
    refine List.exists_cons_of_ne_nil ?_
    rintro rfl
    exact name_ne_nil f hname.symm
  obtain ⟨hc, hrun⟩ := List.forall_mem_cons.mp hword
  obtain ⟨tokens', grouped, afters, hscanned, hitems, hcalls, hrests⟩ :=
    h (place + (c :: run).length + 1 + n.length + 1)
  have hclosing : Scanned (place + (c :: run).length + 1 + n.length) (')' :: t)
      (⟨.closing, _⟩ :: tokens') := .sign rfl hscanned
  have hnumber := hn.scanned_append (by rintro _ ⟨⟩; rfl) hclosing
  have hopening : Scanned (place + (c :: run).length) ('(' :: (n ++ ')' :: t))
      (⟨.opening, _⟩ :: _) := .sign rfl hnumber
  have hcall := Scanned.name hc (fun d hd => isAlphanum_of_isAlpha (hrun d hd))
    (by rintro _ ⟨⟩; rfl) hopening
  rw [hname] at hcall
  refine ⟨_, _, _, by simpa using hcall, ?_, .call hcalls, .cons hafter hrests⟩
  simpa [itemsOf] using hitems

theorem scanFrom_gap (hgap : ∀ c ∈ gap, isBlank c = true) (position : ℕ) (s : Text) :
    scanFrom position (gap ++ s) = scanFrom (position + gap.length) s := by
  induction gap generalizing position with
  | nil => rfl
  | cons c gap ih =>
    obtain ⟨hc, hgap⟩ := List.forall_mem_cons.mp hgap
    rw [List.cons_append, scanFrom_blank (isBlank_keypadForm c ▸ hc), ih hgap, List.length_cons,
      Nat.add_right_comm, Nat.add_assoc]

/-- The rewriting keeps the first character of a text. -/
theorem head?_substituteFrom (hplain : ∀ c ∈ s, IsPlain c) (before : Option Char) :
    (substituteFrom bareCall 0 before s).head? = s.head? := by
  cases s with
  | nil => rfl
  | cons c s =>
    cases h : bareCall before (c :: s) with
    | none => rw [(substituteFrom_none h).1]; rfl
    | some found =>
      obtain ⟨f, word, gap, n, rest, hs, hname, -, -, -, -, -, rfl⟩ := bareCall_of_plain hplain h
      have hword : word ≠ [] := by
        rintro rfl
        exact name_ne_nil f hname.symm
      obtain ⟨d, word, rfl⟩ := List.exists_cons_of_ne_nil hword
      have hpart : c :: s = (d :: word ++ (gap ++ n)) ++ rest := by simpa using hs
      rw [(substituteFrom_found hpart (by simp) h).1]
      obtain ⟨rfl, -⟩ := List.cons.inj hs
      rfl

/-- Nothing is found in a run of characters of which none is a letter. -/
theorem substituteFrom_of_not_isAlpha (hplain : ∀ c ∈ run, IsPlain c)
    (hrun : ∀ c ∈ run, c.isAlpha = false) (before : Option Char) (rest : Text) :
    substituteFrom bareCall 0 before (run ++ rest) =
        run ++ substituteFrom bareCall 0 (lastOr before run) rest ∧
      behindFrom bareCall 0 before (run ++ rest) =
        behindFrom bareCall 0 (lastOr before run) rest :=
  substituteFrom_run bareCall (p := fun _ => True)
    (fun c hc => ⟨trivial, fun before s _ => bareCall_of_not_isAlpha (hplain c hc) (hrun c hc) before s⟩)
    trivial rest

/-- Nothing is found in a name behind its first character. -/
theorem substituteFrom_of_name (hc : c.isAlphanum = true) (hrun : ∀ d ∈ run, d.isAlphanum = true)
    (h : bareCall before (c :: (run ++ rest)) = none) :
    substituteFrom bareCall 0 before (c :: run ++ rest) =
        c :: run ++ substituteFrom bareCall 0 (lastOr before (c :: run)) rest ∧
      behindFrom bareCall 0 before (c :: run ++ rest) =
        behindFrom bareCall 0 (lastOr before (c :: run)) rest := by
  have hword {d : Char} (hd : d.isAlphanum = true) : startsWord (some d) = false := by
    rw [startsWord, isWord_of_isAlphanum hd]
    rfl
  obtain ⟨hsubstitute, hbehind⟩ := substituteFrom_none h
  obtain ⟨hsubstitute', hbehind'⟩ := substituteFrom_run bareCall
    (p := fun before => startsWord before = false)
    (fun d hd => ⟨hword (hrun d hd), fun before s hb => bareCall_of_not_startsWord hb _⟩)
    (hword hc) rest
  rw [List.cons_append, hsubstitute, hbehind, hsubstitute', hbehind', lastOr_cons]
  exact ⟨rfl, rfl⟩

/-- The rewriting puts the numbers of the calls that it finds in a text into parentheses and changes
no other token, if no point follows such a number. -/
def Regroups (s : Text) : Prop :=
  ∀ before position tokens, Scanned position s tokens →
    (∀ rest ∈ behindFrom bareCall 0 before s, rest.head? ≠ some '.') →
    Groups tokens (behindFrom bareCall 0 before s) (substituteFrom bareCall 0 before s)

/-- A call that is found has its number in parentheses, if the rest has it so. -/
theorem groups_found (hc : c.isAlpha = true) (hrun : ∀ d ∈ run, d.isAlphanum = true)
    (hend : ∀ d ∈ s.head?, d.isAlphanum = false) (hplain : ∀ d ∈ c :: run ++ s, IsPlain d)
    (hfound : bareCall before (c :: run ++ s) = some found)
    (hs : Scanned (position + (c :: run).length) s tokens)
    (hpoint : ∀ rest ∈ behindFrom bareCall 0 before (c :: run ++ s), rest.head? ≠ some '.')
    (ih : ∀ rest : Text, rest.length < (c :: run ++ s).length → Regroups rest) :
    Groups (⟨.name ((c :: run).map Char.toLower), position⟩ :: tokens)
      (behindFrom bareCall 0 before (c :: run ++ s))
      (substituteFrom bareCall 0 before (c :: run ++ s)) := by
  obtain ⟨f, word, gap, n, rest, htext, hname, hword, hne, hgap, hn, hends, rfl⟩ :=
    bareCall_of_plain hplain hfound
  -- The name goes on to the white space in front of the number, so it is the word that is found.
  have hgapEnd : ∀ d ∈ (gap ++ (n ++ rest)).head?, d.isAlphanum = false := by
    obtain ⟨b, gap, rfl⟩ := List.exists_cons_of_ne_nil hne
    rintro _ ⟨⟩
    by_contra hb
    have hblank := hgap b (.head _)
    rw [isBlank_of_isAlphanum (by simpa using hb)] at hblank
    cases hblank
  obtain ⟨rfl, rfl⟩ := run_unique htext
    (List.forall_mem_cons.mpr ⟨isAlphanum_of_isAlpha hc, hrun⟩) hend
    (fun d hd => isAlphanum_of_isAlpha (hword d hd)) hgapEnd
  have hpart : c :: (run ++ (gap ++ (n ++ rest))) = (c :: run ++ (gap ++ n)) ++ rest := by simp
  obtain ⟨hsubstitute, hbehind⟩ := substituteFrom_found hpart (by simp) hfound
  rw [List.cons_append, hbehind] at hpoint ⊢
  rw [hsubstitute, hname]
  obtain ⟨hfirst, hpoint⟩ := List.forall_mem_cons.mp hpoint
  rw [← scanFrom_eq_ok, scanFrom_gap hgap, scanFrom_eq_ok] at hs
  obtain ⟨tokens, rfl, hrest⟩ := hn.of_scanned_append (isNumeral_of_endsWord hends hfirst) hs
  exact .call hword hname hn ⟨_, hrest⟩ (ih rest (by simp only [List.length_append, List.length_cons]; omega) _ _ _ hrest hpoint)

theorem regroups (s : Text) : Regroups s := by
  -- A call takes several tokens at once, so the induction is on the length of the text.
  induction hlength : s.length using Nat.strong_induction_on generalizing s with
  | _ length ih =>
  subst hlength
  replace ih (rest : Text) (hrest : rest.length < s.length) : Regroups rest := ih _ hrest rest rfl
  intro before position tokens h hpoint
  have hplain : ∀ c ∈ s, IsPlain c := fun c hc => isPlain_of_isScannable (h.isScannable c hc)
  cases h with
  | nil => exact groups_nil
  | @blank _ c s _ hb hrest =>
    have hc : c.isAlpha = false := by
      by_contra hc
      rw [isBlank_keypadForm, isBlank_of_isAlphanum (isAlphanum_of_isAlpha (by simpa using hc))] at hb
      cases hb
    obtain ⟨hsubstitute, hbehind⟩ :=
      substituteFrom_none (bareCall_of_not_isAlpha (hplain c (.head _)) hc before s)
    rw [hbehind] at hpoint ⊢
    rw [hsubstitute]
    exact .blank hb (ih s (Nat.lt_succ_self _) _ _ _ hrest hpoint)
  | @sign _ c s tokens item hsign hrest =>
    have hc : c.isAlpha = false := by
      by_contra hc
      have halpha : c.isAlpha = true := by simpa using hc
      have hnot := (sign_of_ofSign? hsign).2.2.1
      rw [keypadForm_of_isAlphanum (isAlphanum_of_isAlpha halpha), halpha] at hnot
      cases hnot
    obtain ⟨hsubstitute, hbehind⟩ :=
      substituteFrom_none (bareCall_of_not_isAlpha (hplain c (.head _)) hc before s)
    rw [hbehind] at hpoint ⊢
    rw [hsubstitute]
    exact .token [c] (fun _ _ h => .sign hsign h) (ih s (Nat.lt_succ_self _) _ _ _ hrest hpoint)
  | @number _ c run s tokens hn hrun hend hcount hrest =>
    obtain ⟨hword, hplain⟩ := List.forall_mem_append.mp hplain
    have hnumeral : ∀ d ∈ c :: run, isNumeral d = true :=
      List.forall_mem_cons.mpr ⟨isNumeral_of_startsNumber hn, hrun⟩
    have halpha : ∀ d ∈ c :: run, d.isAlpha = false := fun d hd => by
      by_contra hc
      have := hnumeral d hd
      rw [isNumeral_of_isAlpha (by simpa using hc)] at this
      cases this
    obtain ⟨hsubstitute, hbehind⟩ := substituteFrom_of_not_isAlpha hword halpha before s
    have hhead := head?_substituteFrom hplain (lastOr before (c :: run))
    rw [hbehind] at hpoint ⊢
    rw [hsubstitute]
    refine .token (c :: run) (fun _ _ h => .number ?_ hrun (hhead ▸ hend) hcount h)
      (ih s (by simp only [List.length_append, List.length_cons]; omega) _ _ _ hrest hpoint)
    rwa [startsNumber, List.head?_append, hhead, ← List.head?_append]
  | @name _ c run s tokens ha hrun hend hrest =>
    cases hread : bareCall before (c :: run ++ s) with
    | some found => exact groups_found ha hrun hend hplain hread hrest hpoint ih
    | none =>
      obtain ⟨-, hplain⟩ := List.forall_mem_append.mp hplain
      obtain ⟨hsubstitute, hbehind⟩ := substituteFrom_of_name (isAlphanum_of_isAlpha ha) hrun hread
      have hhead := head?_substituteFrom hplain (lastOr before (c :: run))
      rw [hbehind] at hpoint ⊢
      rw [hsubstitute]
      exact .token (c :: run) (fun _ _ h => .name ha hrun (hhead ▸ hend) h)
        (ih s (by simp only [List.length_append, List.length_cons]; omega) _ _ _ hrest hpoint)

end Scanning

section Meaning

variable {s : Text} {output : List Token}

/-! ### The two readings of a call -/

/-- A text that has a postfix form has one after the bare numbers of its calls are put into
parentheses, if no point follows such a number and if the white space that is left is apart.  It is
the same one where the operand ends behind each call, and another one where a power or a suffix follows
a call: the parser lets that go before the function, and the parentheses do not. -/
theorem explain_bareCalls (h : explainSpaced s = .ok output)
    (hpoint : ∀ rest ∈ behind bareCall s, rest.head? ≠ some '.')
    (hapart : Apart (substitute bareCall s)) :
    ∃ output', explain (substitute bareCall s) = .ok output' ∧
      ((∀ rest ∈ behind bareCall s, ∀ c ∈ (normalized rest).head?, c ∈ "),+-*/".toList) →
        itemsOf output' = itemsOf output) ∧
      ((∃ rest ∈ behind bareCall s, ∃ c ∈ (normalized rest).head?, c ∈ "^!%".toList) →
        itemsOf output' ≠ itemsOf output) := by
  obtain ⟨tokens, hscan, hpostfix⟩ := explainSpaced_eq_ok.mp h
  obtain ⟨tokens', grouped, afters, hscanned, hitems, hcalls, hrests⟩ :=
    regroups s none 0 tokens (scanned_of_scanFrom hscan) hpoint 0
  obtain ⟨between, hbetween, -, hsame, hfewer⟩ := hcalls.toPostfix [] hpostfix
  obtain ⟨normal, hnormal, hnormalItems⟩ := exists_scan_normalized hapart hscanned.scanFrom_eq
  have hcongr := toPostfix_congr (hnormalItems.trans hitems)
  rw [show toPostfix grouped = .ok between from hbetween] at hcongr
  obtain ⟨output', houtput', hitems'⟩ := map_eq_ok hcongr
  refine ⟨output', ?_, fun hall => ?_, fun hsome heq => ?_⟩
  · rw [explain, hnormal]
    simp only [houtput']
    rfl
  · rw [hitems', hsame fun after hafter => ?_]
    obtain ⟨rest, hrest, position, hafter⟩ := exists_of_mem_forall₂ hrests.flip hafter
    exact hafter.releases (hall rest hrest)
  · obtain ⟨rest, hrest, hsign⟩ := hsome
    obtain ⟨after, hafter, position, hscannedAfter⟩ := exists_of_mem_forall₂ hrests hrest
    have hlt := hfewer ⟨after, hafter, hscannedAfter.goesFirst hsign⟩
    rw [delays_of_itemsOf (hitems'.symm.trans heq)] at hlt
    exact lt_irrefl _ hlt

/-- Two calls, in a product and in a group, that are followed by a sign and by the end of the group. -/
theorem explain_bareCalls_product : ∃ output output',
    explainSpaced "-sin 45 * (2 - LOG 2.5 )" = .ok output ∧
      explain "-sin(45) * (2 - LOG(2.5) )" = .ok output' ∧ itemsOf output' = itemsOf output := by
  have hok : (explainSpaced "-sin 45 * (2 - LOG 2.5 )").isOk = true := by decide +kernel
  have hsubstitute : substitute bareCall "-sin 45 * (2 - LOG 2.5 )" = "-sin(45) * (2 - LOG(2.5) )" := by
    decide +kernel
  have hbehind : behind bareCall "-sin 45 * (2 - LOG 2.5 )" =
      ([" * (2 - LOG 2.5 )", " )"] : List Text) := by decide +kernel
  cases h : explainSpaced "-sin 45 * (2 - LOG 2.5 )" with
  | error => rw [h] at hok; cases hok
  | ok output =>
    obtain ⟨output', houtput', hsame, -⟩ :=
      explain_bareCalls h (by rw [hbehind]; decide) (by decide +kernel)
    rw [hsubstitute] at houtput'
    refine ⟨output, output', rfl, houtput', hsame fun rest hrest c hc => ?_⟩
    rw [hbehind, List.mem_pair] at hrest
    rcases hrest with rfl | rfl
    · obtain rfl : '*' = c := Option.some.inj hc
      decide
    · obtain rfl : ')' = c := Option.some.inj hc
      decide

/-- The two readings of a call do not always agree: `sin 45^2` is the sine of a power, and
`sin(45)^2` is the power of a sine. -/
theorem not_explain_bareCalls : ¬∀ (s : Text) (output : List Token), explainSpaced s = .ok output →
    Apart (substitute bareCall s) → ∃ output', explain (substitute bareCall s) = .ok output' ∧
      itemsOf output' = itemsOf output := by
  intro h
  have hspaced : explainSpaced "sin 45^2" =
      .ok [⟨.number 45, 4⟩, ⟨.number 2, 7⟩, ⟨.operator .pow, 6⟩, ⟨.name "sin", 0⟩] := by
    decide +kernel
  have hcalled : explain (substitute bareCall "sin 45^2") =
      .ok [⟨.number 45, 4⟩, ⟨.name "sin", 0⟩, ⟨.number 2, 8⟩, ⟨.operator .pow, 7⟩] := by
    decide +kernel
  obtain ⟨output', houtput', hitems⟩ := h _ _ hspaced (by decide +kernel)
  obtain rfl := Except.ok.inj (hcalled.symm.trans houtput')
  simp [itemsOf] at hitems

-- A point behind the number belongs to it where white space is read, and to nothing in a call.
example : (explainSpaced "sin 45.").map itemsOf = .ok [.number 45, .name "sin"] ∧
    explain (substitute bareCall "sin 45.") = .error (.lex ⟨.unexpectedCharacter, ".", 7⟩) := by
  decide +kernel

end Meaning

end Reckoner
