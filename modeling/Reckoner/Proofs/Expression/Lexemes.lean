import Reckoner.Proofs.Checked.Scanning
import Reckoner.Proofs.Number.Positional
import Reckoner.Proofs.Text.Unspaced

/-! The scanner loses nothing.  The tokens of a text stand in it at their positions, one behind the
other, with white space between them; a number and a name go on as far as their characters do.  Where
the scanner stops, the text before that place has tokens, and none can start there. -/

namespace Reckoner

/-! ### Lexemes -/

/-- The characters that an item is written with: a number as digits with one point among them at most,
of which it is the nearest double, a name as letters and digits in any case with a letter first, and
any other item as its sign, an operator also as one that a keypad has for it. -/
inductive Lexeme : (lexeme : Text) → Item → Prop
  | whole {digits : Text} {value : Double} (hne : digits ≠ [])
      (h : ∀ c ∈ digits, c.isDigit = true)
      (hvalue : Decimal.IsNearest (Nat.ofDigitChars 10 digits 0) value) :
      Lexeme digits (.number value)
  | pointed {whole fraction : Text} {value : Double} (hne : whole ++ fraction ≠ [])
      (h : ∀ c ∈ whole ++ fraction, c.isDigit = true)
      (hvalue : Decimal.IsNearest
        (Nat.ofDigitChars 10 (whole ++ fraction) 0 / 10 ^ fraction.length) value) :
      Lexeme (whole ++ '.' :: fraction) (.number value)
  | name {c : Char} {run : Text} (h : c.isAlpha = true) (hrun : ∀ d ∈ run, d.isAlphanum = true) :
      Lexeme (c :: run) (.name ((c :: run).map Char.toLower))
  | opening : Lexeme ['('] .opening
  | closing : Lexeme [')'] .closing
  | comma : Lexeme [','] .comma
  | suffix (mark : Suffix) : Lexeme [mark.symbol] (.suffix mark)
  | operator {c : Char} {op : Operator} (h : keypadForm c = op.symbol) : Lexeme [c] (.operator op)

/-- Whether an item in a text goes on with the character behind it. -/
def Item.goesOn : Item → Char → Bool
  | number _, c => isNumeral c
  | name _, c => c.isAlphanum
  | _, _ => false

/-- Tokens with their lexemes, of a text whose first character is at `position`: each lexeme stands in
the text where its token says and as long as it can be, none starts before the one in front of it has
ended, and all other characters are white space. -/
structure Spans (position : ℕ) (s : Text) (spans : List (Token × Text)) : Prop where
  lexed : ∀ x ∈ spans, ∃ before after, s = before ++ (x.2 ++ after) ∧
    x.1.position = position + before.length ∧ Lexeme x.2 x.1.item ∧
    ∀ c ∈ after.head?, x.1.item.goesOn c = false
  ordered : spans.Pairwise fun x y => x.1.position + (x.2.length : ℤ) ≤ y.1.position
  covered : ∀ (i : ℕ) c, s[i]? = some c → isBlank c = true ∨
    ∃ x ∈ spans, x.1.position ≤ position + i ∧ (position : ℤ) + i < x.1.position + x.2.length

/-- Why no token can be read where `rest` starts, with the characters that are reported: its digits and
points have two points among them or more, or it starts with a character that is neither white space
nor the first one of a lexeme. -/
inductive Stuck : (rest : Text) → LexReason → (lexeme : Text) → Prop
  | number {rest : Text} (h : 2 ≤ (rest.takeWhile isNumeral).count '.') :
      Stuck rest .invalidNumber (rest.takeWhile isNumeral)
  | character {c : Char} {rest : Text} (hblank : isBlank c = false)
      (hnone : ∀ lexeme item, Lexeme lexeme item → ¬lexeme <+: c :: rest) :
      Stuck (c :: rest) .unexpectedCharacter [c]

section Lexemes

variable {position : ℕ} {c : Char} {s run rest lexeme literal : Text} {item : Item}
  {spans : List (Token × Text)} {tokens : List Token}

theorem Lexeme.ne_nil (h : Lexeme lexeme item) : lexeme ≠ [] := by
  cases h with
  | whole hne => exact hne
  | pointed => simp
  | _ => exact List.cons_ne_nil _ _

/-! ### What is read is a lexeme -/

theorem lexeme_of_ofSign? (h : Item.ofSign? (keypadForm c) = some item) : Lexeme [c] item := by
  have hself {sign : Char} (hsign : keypadForm c = sign) (hne : sign ≠ '/' ∧ sign ≠ '*' ∧ sign ≠ '-') :
      c = sign := by
    rcases keypadForm_eq_self_or c with hc | hc | hc | hc
    · exact hc.symm.trans hsign
    · exact absurd (hsign.symm.trans hc) hne.1
    · exact absurd (hsign.symm.trans hc) hne.2.1
    · exact absurd (hsign.symm.trans hc) hne.2.2
  rw [Item.ofSign?.eq_def] at h
  split at h
  case h_1 hc => cases h; cases hself hc (by decide); exact .opening
  case h_2 hc => cases h; cases hself hc (by decide); exact .closing
  case h_3 hc => cases h; cases hself hc (by decide); exact .comma
  case h_4 hc => cases h; cases hself hc (by decide); exact .suffix .factorial
  case h_5 hc => cases h; cases hself hc (by decide); exact .suffix .percent
  case h_6 =>
    obtain ⟨op, hop, rfl⟩ := Option.map_eq_some_iff.mp h
    refine .operator ?_
    rw [Operator.ofSymbol?.eq_def] at hop
    split at hop <;> first | (cases hop; assumption) | cases hop

theorem goesOn_of_ofSign? (h : Item.ofSign? c = some item) (d : Char) : item.goesOn d = false := by
  rw [Item.ofSign?.eq_def] at h
  split at h
  case h_6 => obtain ⟨op, -, rfl⟩ := Option.map_eq_some_iff.mp h; rfl
  all_goals cases h; rfl

/-- The value of a run of digits and points is the double nearest to its number. -/
theorem lexeme_literal (h : ∀ d ∈ literal, isNumeral d = true) (hpoint : literal.count '.' ≤ 1)
    (hdigit : ∃ d ∈ literal, d.isDigit = true) : Lexeme literal (.number (literalValue literal)) := by
  have hnearest := Decimal.toDouble_isNearest (Decimal.ofLiteral literal)
  have hdigits := Checked.isDigit_of_mem_parts h hpoint
  obtain ⟨d, hd, hdigit⟩ := hdigit
  have hne := List.ne_nil_of_mem (Checked.mem_parts hd (by rintro rfl; cases hdigit))
  rcases Checked.literal_split literal with ⟨hwhole, hnil⟩ | hsplit
  · rw [← hwhole, hnil, List.drop_nil, List.append_nil] at hdigits hne
    refine .whole hne hdigits ?_
    rw [Decimal.value, Decimal.ofLiteral_whole hdigits, digitsValue_eq] at hnearest
    simpa [literalValue, Decimal.ofLiteral_whole hdigits, digitsValue_eq] using hnearest
  · rw [hsplit]
    refine .pointed hne hdigits ?_
    rw [← hsplit]
    have hvalue : (Decimal.ofLiteral literal).value =
        Nat.ofDigitChars 10 (literal.takeWhile (· != '.') ++
          (literal.dropWhile (· != '.')).drop 1) 0 /
          10 ^ ((literal.dropWhile (· != '.')).drop 1).length := by
      rw [Decimal.value, Decimal.ofLiteral, Decimal.ofDigits, digitsValue_eq, zero_sub, zpow_neg,
        zpow_natCast, div_eq_mul_inv]
    rwa [hvalue] at hnearest

/-! ### Texts that have tokens -/

theorem Spans.nil : Spans position [] [] := ⟨nofun, .nil, nofun⟩

theorem Spans.le_position (h : Spans position s spans) {x : Token × Text} (hx : x ∈ spans) :
    (position : ℤ) ≤ x.1.position := by
  obtain ⟨before, -, -, hposition, -⟩ := h.lexed x hx
  omega

section Append

variable (lead : Text) (h : Spans (position + lead.length) s spans)

include h

theorem Spans.lexed_append {x : Token × Text} (hx : x ∈ spans) :
    ∃ before after, lead ++ s = before ++ (x.2 ++ after) ∧
      x.1.position = position + before.length ∧ Lexeme x.2 x.1.item ∧
      ∀ c ∈ after.head?, x.1.item.goesOn c = false := by
  obtain ⟨before, after, rfl, hposition, hlexeme, hend⟩ := h.lexed x hx
  refine ⟨lead ++ before, after, (List.append_assoc ..).symm, ?_, hlexeme, hend⟩
  rw [hposition, List.length_append]
  push_cast
  ring

theorem Spans.covered_append {i : ℕ} (hi : lead.length ≤ i) (hc : (lead ++ s)[i]? = some c) :
    isBlank c = true ∨
      ∃ x ∈ spans, x.1.position ≤ position + i ∧ (position : ℤ) + i < x.1.position + x.2.length := by
  rw [List.getElem?_append_right hi] at hc
  refine (h.covered _ c hc).imp_right fun ⟨x, hx, hlow, hhigh⟩ => ⟨x, hx, ?_, ?_⟩ <;> omega

end Append

theorem Spans.blank (hc : isBlank c = true) (h : Spans (position + 1) s spans) :
    Spans position (c :: s) spans where
  lexed _ hx := h.lexed_append [c] hx
  ordered := h.ordered
  covered i d hd := by
    cases i with
    | zero => exact .inl (Option.some.inj hd ▸ hc)
    | succ i => exact h.covered_append [c] (Nat.le_add_left 1 i) hd

theorem Spans.token (hlexeme : Lexeme lexeme item) (hend : ∀ c ∈ s.head?, item.goesOn c = false)
    (h : Spans (position + lexeme.length) s spans) :
    Spans position (lexeme ++ s) ((⟨item, position⟩, lexeme) :: spans) where
  lexed := List.forall_mem_cons.mpr
    ⟨⟨[], s, rfl, (add_zero _).symm, hlexeme, hend⟩, fun _ hx => h.lexed_append lexeme hx⟩
  ordered := List.pairwise_cons.mpr
    ⟨fun _ hx => by exact_mod_cast h.le_position hx, h.ordered⟩
  covered i c hc := by
    rcases Nat.lt_or_ge i lexeme.length with hi | hi
    · exact .inr ⟨_, .head _, by simp, by simpa using hi⟩
    · exact (h.covered_append lexeme hi hc).imp_right fun ⟨x, hx, hin⟩ => ⟨x, .tail _ hx, hin⟩

theorem Spans.pairwise_lt (h : Spans position s spans) :
    (spans.map Prod.fst).Pairwise (·.position < ·.position) := by
  rw [List.pairwise_map]
  refine h.ordered.imp_of_mem fun hx _ hle => ?_
  obtain ⟨-, -, -, -, hlexeme, -⟩ := h.lexed _ hx
  have := List.length_pos_iff.mpr hlexeme.ne_nil
  omega

theorem Scanned.exists_spans (h : Scanned position s tokens) :
    ∃ spans, spans.map Prod.fst = tokens ∧ Spans position s spans := by
  induction h with
  | nil => exact ⟨[], rfl, .nil⟩
  | blank hb _ ih =>
    obtain ⟨spans, htokens, hspans⟩ := ih
    exact ⟨spans, htokens, .blank (isBlank_keypadForm _ ▸ hb) hspans⟩
  | number hn hrun hend hpoint _ ih =>
    obtain ⟨spans, rfl, hspans⟩ := ih
    have hall : ∀ d ∈ _ :: _, isNumeral d = true :=
      List.forall_mem_cons.mpr ⟨isNumeral_of_startsNumber hn, hrun⟩
    have hdigit := Checked.exists_digit_of_startsNumber hn
    rw [(takeWhile_run hrun hend).1] at hdigit
    exact ⟨_, rfl, hspans.token (lexeme_literal hall hpoint hdigit) hend⟩
  | name ha hrun hend _ ih =>
    obtain ⟨spans, rfl, hspans⟩ := ih
    exact ⟨_, rfl, hspans.token (.name ha hrun) hend⟩
  | sign hsign _ ih =>
    obtain ⟨spans, rfl, hspans⟩ := ih
    exact ⟨_, rfl, hspans.token (lexeme_of_ofSign? hsign) fun d _ => goesOn_of_ofSign? hsign d⟩

/-! ### Where the scanner stops -/

/-- The scanner finds a token wherever a lexeme starts. -/
theorem Lexeme.starts (h : Lexeme lexeme item) (hstart : lexeme <+: c :: rest) :
    startsNumber (keypadForm c) rest = true ∨ (keypadForm c).isAlpha = true ∨
      (Item.ofSign? (keypadForm c)).isSome = true := by
  have hdigit {d : Char} {run : Text} (hd : d.isDigit = true) (hrun : d :: run <+: c :: rest) :
      startsNumber (keypadForm c) rest = true := by
    obtain rfl := (List.cons_prefix_cons.mp hrun).1
    rw [keypadForm_of_isAlphanum (isAlphanum_of_isDigit hd), startsNumber, hd, Bool.true_or]
  cases h with
  | whole hne h =>
    cases lexeme with
    | nil => exact absurd rfl hne
    | cons d digits => exact .inl (hdigit (h d (.head _)) hstart)
  | @pointed whole fraction _ hne h =>
    cases whole with
    | cons d whole => exact .inl (hdigit (h d (.head _)) hstart)
    | nil =>
      obtain ⟨rfl, hfraction⟩ := List.cons_prefix_cons.mp hstart
      cases fraction with
      | nil => exact absurd rfl hne
      | cons d fraction =>
        obtain ⟨after, rfl⟩ := hfraction
        exact .inl (h d (.head _))
  | name ha =>
    obtain rfl := (List.cons_prefix_cons.mp hstart).1
    exact .inr (.inl (by rwa [keypadForm_of_isAlphanum (isAlphanum_of_isAlpha ha)]))
  | operator hop =>
    obtain rfl := (List.cons_prefix_cons.mp hstart).1
    rw [hop]
    exact .inr (.inr (by cases ‹Operator› <;> rfl))
  | suffix mark =>
    obtain rfl := (List.cons_prefix_cons.mp hstart).1
    exact .inr (.inr (by cases mark <;> rfl))
  | opening | closing | comma =>
    obtain rfl := (List.cons_prefix_cons.mp hstart).1
    exact .inr (.inr rfl)

theorem head?_of_append {p : Char → Bool} {before : Text}
    (h : ∀ d ∈ (before ++ rest).head?, p d = false) : ∀ d ∈ before.head?, p d = false :=
  fun d hd => h d (List.mem_head?_append_of_mem_head? hd)

/-- The text before the place of an error has tokens, and none can start there. -/
theorem stuck_of_scanFrom {error : LexError} (h : scanFrom position s = .error error) :
    ∃ before rest tokens, s = before ++ rest ∧ error.position = position + before.length ∧
      Scanned position before tokens ∧ Stuck rest error.reason error.lexeme := by
  fun_induction scanFrom position s generalizing error
  case case1 => cases h
  case case2 position c rest sign hb ih =>
    obtain ⟨before, rest, tokens, rfl, hposition, hbefore, hstuck⟩ := ih h
    refine ⟨c :: before, rest, tokens, rfl, ?_, .blank hb hbefore, hstuck⟩
    rw [hposition, List.length_cons, Nat.add_right_comm, Nat.add_assoc]
  case case3 position c rest sign hb hn literal hpoint =>
    cases h
    have hstart : startsNumber c rest = true := keypadForm_of_startsNumber hn ▸ hn
    have hc := isNumeral_of_startsNumber hstart
    have hrun : (c :: rest).takeWhile isNumeral = literal := List.takeWhile_cons_of_pos hc
    refine ⟨[], c :: rest, [], rfl, rfl, .nil, ?_⟩
    have hstuck : Stuck (c :: rest) .invalidNumber ((c :: rest).takeWhile isNumeral) :=
      .number (hrun ▸ hpoint)
    exact hrun ▸ hstuck
  case case4 position c rest sign hb hn literal hpoint ih =>
    obtain ⟨before, after, tokens, hrest, hposition, hbefore, hstuck⟩ := ih (map_eq_error h)
    have hc : sign = c := keypadForm_of_startsNumber hn
    have htext : c :: rest = literal ++ before ++ after := by
      rw [List.append_assoc, ← hrest, List.cons_append, List.takeWhile_append_dropWhile]
    refine ⟨literal ++ before, after, _, htext, ?_, .number ?_ ?_ ?_ (Nat.le_of_not_lt hpoint) hbefore,
      hstuck⟩
    · rw [hposition, List.length_append, Nat.add_assoc]
    · exact startsNumber_append (startsNumber_takeWhile (hc ▸ hn)) before
    · exact fun d hd => List.mem_takeWhile_imp hd
    · exact head?_of_append (hrest ▸ head?_dropWhile_eq_false)
  case case5 position c rest sign hb hn ha word ih =>
    obtain ⟨before, after, tokens, hrest, hposition, hbefore, hstuck⟩ := ih (map_eq_error h)
    have hc : sign = c := keypadForm_of_isAlpha ha
    have htext : c :: rest = word ++ before ++ after := by
      rw [List.append_assoc, ← hrest, List.cons_append, List.takeWhile_append_dropWhile]
    refine ⟨word ++ before, after, _, htext, ?_, .name (hc ▸ ha) ?_ ?_ hbefore, hstuck⟩
    · rw [hposition, List.length_append, Nat.add_assoc]
    · exact fun d hd => List.mem_takeWhile_imp hd
    · exact head?_of_append (hrest ▸ head?_dropWhile_eq_false)
  case case6 position c rest sign hb hn ha item hsign ih =>
    obtain ⟨before, rest, tokens, rfl, hposition, hbefore, hstuck⟩ := ih (map_eq_error h)
    refine ⟨c :: before, rest, _, rfl, ?_, .sign hsign hbefore, hstuck⟩
    rw [hposition, List.length_cons, Nat.add_right_comm, Nat.add_assoc]
  case case7 position c rest sign hb hn ha hsign =>
    cases h
    refine ⟨[], c :: rest, [], rfl, rfl, .nil, .character ?_ ?_⟩
    · rw [← isBlank_keypadForm]
      exact Bool.eq_false_of_not_eq_true hb
    · intro lexeme item hlexeme hstart
      rcases hlexeme.starts hstart with hnumber | halpha | hitem
      · exact hn hnumber
      · exact ha halpha
      · rw [show Item.ofSign? (keypadForm c) = none from hsign] at hitem
        cases hitem

/-- The scanner loses nothing and reads as far as it can: it ends on every text, at each step behind
the place where it has been, with tokens that stand in the text side by side or with white space
between them; or else it reports the first place where no token can be read. -/
theorem scan_lossless (s : Text) :
    Checked.scanFrom s 0 = Checked.rawly .lex (scan s) ∧
      ((∃ spans, scan s = .ok (spans.map Prod.fst) ∧ Spans 0 s spans ∧
          (spans.map Prod.fst).Pairwise (·.position < ·.position) ∧
          ∀ t ∈ spans.map Prod.fst, t.item ≠ .negation) ∨
        ∃ error before rest tokens, scan s = .error error ∧ s = before ++ rest ∧
          error.position = before.length ∧ scan before = .ok tokens ∧
          Stuck rest error.reason error.lexeme) := by
  refine ⟨Checked.scanFrom_eq rfl, ?_⟩
  cases h : scan s with
  | ok tokens =>
    obtain ⟨spans, rfl, hspans⟩ := (scanned_of_scanFrom h).exists_spans
    exact .inl ⟨spans, rfl, hspans, hspans.pairwise_lt, (scanned_of_scanFrom h).item_ne_negation⟩
  | error error =>
    obtain ⟨before, rest, tokens, rfl, hposition, hbefore, hstuck⟩ := stuck_of_scanFrom h
    exact .inr ⟨error, before, rest, tokens, rfl, rfl, hposition.trans (Nat.zero_add _),
      hbefore.scanFrom_eq, hstuck⟩

end Lexemes

end Reckoner
