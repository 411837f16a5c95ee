import Reckoner.Proofs.Checked.Pipeline
import Reckoner.Proofs.Expression.Scanning

/-! The scanner by indices reads the tokens that the scanner of texts reads.  Its indices lie within
the text and advance, the runs that it reads as numbers are numbers, and the offset of an error is
that of a character of the text as it was given. -/

namespace Reckoner

namespace Checked

/-- What a stage gives, with its tokens taken apart and its errors as halts. -/
def rawly {ε : Type} (stage : ε → ExpressionError) (result : Except ε (List Token)) :
    Checked (List RawToken) :=
  match result with
  | .ok tokens => return tokens.map Token.raw
  | .error error => fail (stage error)

section Rawly

variable {ε : Type} (stage : ε → ExpressionError) (result : Except ε (List Token))

theorem rawly_append (written : List Token) :
    rawly stage (result.map (written ++ ·)) =
      (rawly stage result).map (written.map Token.raw ++ ·) := by
  cases result with
  | error => rfl
  | ok tokens => exact congrArg Except.ok List.map_append

theorem rawly_cons (token : Token) :
    rawly stage (result.map (token :: ·)) = (rawly stage result).map (token.raw :: ·) :=
  rawly_append stage result [token]

end Rawly

section Scanning

variable {text s rest : Text} {c : Char} {i : Nat}

/-! ### Indices -/

theorem element_of_drop {α : Type} {list rest : List α} {a : α} (h : list.drop i = a :: rest) :
    element list i = .ok a := by
  have ha : list[i]? = some a := by
    rw [← List.head?_drop, h]
    rfl
  rw [element, ha]
  rfl

theorem lt_length_of_drop (h : text.drop i = c :: rest) : i < text.length := by
  by_contra hi
  rw [List.drop_eq_nil_of_le (Nat.le_of_not_lt hi)] at h
  cases h

theorem drop_add_of_drop (h : text.drop i = s) (k : Nat) : text.drop (i + k) = s.drop k := by
  rw [← h, List.drop_drop]

/-- A run ends at the first character that does not belong to it. -/
theorem runEnd_eq {p : Char → Bool} (h : text.drop i = s) :
    runEnd p text i = .ok (i + (s.takeWhile p).length) := by
  induction s generalizing i with
  | nil =>
    have hi : ¬i < text.length := Nat.not_lt.mpr (List.drop_eq_nil_iff.mp h)
    rw [runEnd, if_neg hi]
    rfl
  | cons c rest ih =>
    have hrest := ih (drop_add_of_drop h 1)
    rw [runEnd, if_pos (lt_length_of_drop h), element_of_drop h]
    cases hc : p c with
    | true =>
      simp only [bind, Except.bind, hc, if_true, hrest, List.takeWhile_cons_of_pos hc,
        List.length_cons, Nat.add_assoc, Nat.add_comm 1]
    | false => simp [bind, Except.bind, hc, pure, Except.pure]

theorem slice_add (h : text.drop i = s) (k : Nat) : slice text i (i + k) = s.take k := by
  rw [slice, h, Nat.add_sub_cancel_left]

theorem take_length_takeWhile (p : Char → Bool) (s : Text) :
    s.take (s.takeWhile p).length = s.takeWhile p :=
  (List.prefix_iff_eq_take.mp (List.takeWhile_prefix p)).symm

theorem drop_length_takeWhile (p : Char → Bool) (s : Text) :
    s.drop (s.takeWhile p).length = s.dropWhile p := by
  conv => lhs; arg 2; rw [← List.takeWhile_append_dropWhile (p := p) (l := s)]
  exact List.drop_left

theorem following_eq (h : text.drop i = c :: rest) : following text i = .ok rest.head?.toList := by
  have hrest : text.drop (i + 1) = rest := drop_add_of_drop h 1
  rw [following]
  cases rest with
  | nil => rw [if_neg (Nat.not_lt.mpr (List.drop_eq_nil_iff.mp hrest))]; rfl
  | cons d rest => rw [if_pos (lt_length_of_drop hrest), element_of_drop hrest]; rfl

theorem startsNumber_head? : startsNumber c rest.head?.toList = startsNumber c rest := by
  cases rest <;> rfl

/-! ### Numbers -/

section Literals

variable {literal : Text}

theorem not_isExponentMark_of_isNumeral (h : isNumeral c = true) : isExponentMark c = false := by
  rw [isExponentMark, Bool.or_eq_false_iff, beq_eq_false_iff_ne, beq_eq_false_iff_ne]
  constructor <;> rintro rfl <;> exact absurd h (by decide)

/-- The point of a literal divides it, if it has one. -/
theorem literal_split (literal : Text) :
    literal = literal.takeWhile (· != '.') ∧ literal.dropWhile (· != '.') = [] ∨
      literal = literal.takeWhile (· != '.') ++ '.' :: (literal.dropWhile (· != '.')).drop 1 := by
  have hsplit := List.takeWhile_append_dropWhile (p := (· != '.')) (l := literal)
  cases hrest : literal.dropWhile (· != '.') with
  | nil =>
    rw [hrest, List.append_nil] at hsplit
    exact .inl ⟨hsplit.symm, rfl⟩
  | cons point fraction =>
    obtain rfl : point = '.' := by
      simpa [hrest] using List.head?_dropWhile_not (· != '.') literal
    rw [hrest] at hsplit
    exact .inr hsplit.symm

/-- Before and after its point a literal consists of digits. -/
theorem isDigit_of_mem_parts (h : ∀ d ∈ literal, isNumeral d = true)
    (hpoint : literal.count '.' ≤ 1) :
    ∀ d ∈ literal.takeWhile (· != '.') ++ (literal.dropWhile (· != '.')).drop 1,
      d.isDigit = true := by
  have hdigit {d : Char} (hd : isNumeral d = true) (hne : d ≠ '.') : d.isDigit = true := by
    simpa [isNumeral, hne] using hd
  have hwhole : ∀ d ∈ literal.takeWhile (· != '.'), d.isDigit = true := fun d hd =>
    hdigit (h d ((List.takeWhile_prefix _).subset hd)) (by simpa using List.mem_takeWhile_imp hd)
  refine List.forall_mem_append.mpr ⟨hwhole, ?_⟩
  rcases literal_split literal with ⟨-, hnil⟩ | hsplit
  · simp [hnil]
  · intro d hd
    refine hdigit (h d ?_) ?_
    · rw [hsplit]
      exact List.mem_append_right _ (.tail _ hd)
    · rintro rfl
      rw [hsplit, List.count_append, List.count_cons_self] at hpoint
      exact List.count_eq_zero.mp (by omega) hd

theorem mem_parts {d : Char} (h : d ∈ literal) (hne : d ≠ '.') :
    d ∈ literal.takeWhile (· != '.') ++ (literal.dropWhile (· != '.')).drop 1 := by
  rcases literal_split literal with ⟨hwhole, -⟩ | hsplit
  · exact List.mem_append_left _ (hwhole ▸ h)
  · rw [hsplit] at h
    rcases List.mem_append.mp h with h | h
    · exact List.mem_append_left _ h
    · exact List.mem_append_right _ ((List.mem_cons.mp h).resolve_left hne)

theorem ofText?_literal (h : ∀ d ∈ literal, isNumeral d = true) (hpoint : literal.count '.' ≤ 1)
    (hdigit : ∃ d ∈ literal, d.isDigit = true) :
    Decimal.ofText? literal = some (Decimal.ofLiteral literal) := by
  obtain ⟨digit, hmem, hdigit⟩ := hdigit
  have hmarks : ∀ d ∈ literal, (!isExponentMark d) = true := fun d hd => by
    rw [not_isExponentMark_of_isNumeral (h d hd)]
    rfl
  have hnumber : literal.takeWhile (fun c => !isExponentMark c) = literal :=
    List.takeWhile_eq_self_iff.mpr hmarks
  have hexponent : literal.dropWhile (fun c => !isExponentMark c) = [] :=
    List.dropWhile_eq_nil_iff.mpr hmarks
  have hparts := mem_parts hmem (by rintro rfl; cases hdigit)
  have hnone : (literal.takeWhile (· != '.') ++
      (literal.dropWhile (· != '.')).drop 1).isEmpty = false := by
    rw [List.isEmpty_eq_false_iff]
    exact List.ne_nil_of_mem hparts
  have hall := List.all_eq_true.mpr (isDigit_of_mem_parts h hpoint)
  simp only [Decimal.ofText?, hnumber, hexponent, hnone, hall]
  rfl

/-- A run of digits with one point at most and one digit at least is read as the number that it
stands for. -/
theorem reading_literal (h : ∀ d ∈ literal, isNumeral d = true) (hpoint : literal.count '.' ≤ 1)
    (hdigit : ∃ d ∈ literal, d.isDigit = true) :
    reading literal = .ok (literalValue literal) := by
  have hne {c : Char} {run : Text} (hc : isNumeral c = false) : literal ≠ c :: run := by
    rintro rfl
    rw [h c (.head _)] at hc
    cases hc
  have hvalue : Double.ofText? literal = some (literalValue literal) := by
    rw [Double.ofText?.eq_def]
    split
    · exact absurd rfl (hne rfl)
    · exact absurd rfl (hne rfl)
    · have hinf : literal ≠ "inf".toList := hne rfl
      have hnan : literal ≠ "nan".toList := hne rfl
      rw [Double.ofUnsigned?, if_neg hinf, if_neg hnan, ofText?_literal h hpoint hdigit]
      rfl
  rw [reading, hvalue]
  rfl

end Literals

/-! ### Tokens -/

/-- A number starts with a digit or with a point before one. -/
theorem exists_digit_of_startsNumber (h : startsNumber c rest = true) :
    ∃ d ∈ c :: rest.takeWhile isNumeral, d.isDigit = true := by
  rw [startsNumber, Bool.or_eq_true, Bool.and_eq_true] at h
  rcases h with h | ⟨-, h⟩
  · exact ⟨c, .head _, h⟩
  · cases rest with
    | nil => cases h
    | cons d rest =>
      have hd : isNumeral d = true := by
        rw [isNumeral, show d.isDigit = true from h]
        rfl
      refine ⟨d, ?_, h⟩
      rw [List.takeWhile_cons_of_pos hd]
      exact .tail _ (.head _)

theorem scanNumber_eq (h : text.drop i = c :: rest) (hc : startsNumber c rest = true) :
    scanNumber text i =
      let literal := c :: rest.takeWhile isNumeral
      if 1 < literal.count '.' then fail (.lex ⟨.invalidNumber, literal, i⟩)
      else .ok (Token.raw ⟨.number (literalValue literal), i⟩, i + literal.length) := by
  have hrun : (c :: rest).takeWhile isNumeral = c :: rest.takeWhile isNumeral :=
    List.takeWhile_cons_of_pos (isNumeral_of_startsNumber hc)
  have hslice : slice text i (i + ((c :: rest).takeWhile isNumeral).length) =
      c :: rest.takeWhile isNumeral := by
    rw [slice_add h, take_length_takeWhile, hrun]
  rw [scanNumber, runEnd_eq h]
  simp only [bind, Except.bind, hslice]
  by_cases hpoint : 1 < (c :: rest.takeWhile isNumeral).count '.'
  · rw [if_pos hpoint, if_pos hpoint]
  · have hall : ∀ d ∈ c :: rest.takeWhile isNumeral, isNumeral d = true :=
      hrun ▸ fun d hd => List.mem_takeWhile_imp hd
    rw [if_neg hpoint, if_neg hpoint,
      reading_literal hall (Nat.le_of_not_lt hpoint) (exists_digit_of_startsNumber hc), hrun]
    rfl

theorem scanName_eq (h : text.drop i = c :: rest) :
    scanName text i =
      let word := c :: rest.takeWhile Char.isAlphanum
      .ok (Token.raw ⟨.name (word.map Char.toLower), i⟩, i + word.length) := by
  have hstop : i + 1 + (rest.takeWhile Char.isAlphanum).length =
      i + (c :: rest.takeWhile Char.isAlphanum).length := by
    rw [List.length_cons]
    omega
  have hslice : slice text i (i + (c :: rest.takeWhile Char.isAlphanum).length) =
      c :: rest.takeWhile Char.isAlphanum := by
    rw [slice_add h, List.length_cons, List.take_succ_cons, take_length_takeWhile]
  rw [scanName, runEnd_eq (drop_add_of_drop h 1)]
  simp only [bind, Except.bind, List.drop_one, List.tail_cons, hstop, hslice]
  rfl

/-- What stands in no table is no sign. -/
theorem scanSign_eq (h : text.drop i = c :: rest) (sign : Char) :
    scanSign text sign i =
      match Item.ofSign? sign with
      | some item => .ok (Token.raw ⟨item, i⟩, i + 1)
      | none => fail (.lex ⟨.unexpectedCharacter, [c], i⟩) := by
  by_cases hsign : sign ∈ ['(', ')', ',', '!', '%', '+', '-', '*', '/', '^']
  · have hsigns : sign = '(' ∨ sign = ')' ∨ sign = ',' ∨ sign = '!' ∨ sign = '%' ∨ sign = '+' ∨
        sign = '-' ∨ sign = '*' ∨ sign = '/' ∨ sign = '^' := by
      simpa using hsign
    rcases hsigns with rfl | rfl | rfl | rfl | rfl | rfl | rfl | rfl | rfl | rfl <;> rfl
  · have hnone : Item.ofSign? sign = none :=
      Option.eq_none_iff_forall_ne_some.mpr fun item hitem => hsign (mem_of_ofSign? hitem)
    simp only [List.mem_cons, List.not_mem_nil, or_false, not_or] at hsign
    have hpunctuation : punctuation.lookup [sign] = none := by
      rw [List.lookup_eq_none_iff]
      simp [punctuation, hsign]
    simp [scanSign, hnone, hpunctuation, element_of_drop h, hsign]
    rfl

theorem scanItem_eq (h : text.drop i = c :: rest) (sign : Char) :
    scanItem text sign i =
      if startsNumber sign rest then scanNumber text i
      else if sign.isAlpha then scanName text i
      else scanSign text sign i := by
  rw [scanItem, following_eq h]
  simp only [bind, Except.bind, startsNumber_head?]

/-! ### The loop -/

theorem scanFrom_blank (h : text.drop i = c :: rest) (hb : isBlank (keypadForm c) = true) :
    scanFrom text i = scanFrom text (i + 1) := by
  have htoken : scanToken text i = .ok (none, i + 1) := by
    rw [scanToken, element_of_drop h]
    exact if_pos hb
  rw [scanFrom, if_pos (lt_length_of_drop h), htoken]
  simp only [bind, Except.bind, Nat.lt_succ_self, if_true]
  cases scanFrom text (i + 1) <;> rfl

/-- The loop goes on behind the token that it has read. -/
theorem scanFrom_token (h : text.drop i = c :: rest) (hb : ¬isBlank (keypadForm c) = true)
    {token : RawToken} {k : Nat} (hitem : scanItem text (keypadForm c) i = .ok (token, i + k))
    (hk : 0 < k) : scanFrom text i = (scanFrom text (i + k)).map (token :: ·) := by
  have htoken : scanToken text i = .ok (some token, i + k) := by
    rw [scanToken, element_of_drop h]
    simp only [bind, Except.bind, hb, hitem]
    rfl
  rw [scanFrom, if_pos (lt_length_of_drop h), htoken]
  simp only [bind, Except.bind, Nat.lt_add_of_pos_right hk, if_true]
  cases scanFrom text (i + k) <;> rfl

theorem scanFrom_halt (h : text.drop i = c :: rest) (hb : ¬isBlank (keypadForm c) = true)
    {halt : Halt} (hitem : scanItem text (keypadForm c) i = .error halt) :
    scanFrom text i = .error halt := by
  have htoken : scanToken text i = .error halt := by
    rw [scanToken, element_of_drop h]
    simp only [bind, Except.bind, hb, hitem]
    rfl
  rw [scanFrom, if_pos (lt_length_of_drop h), htoken]
  rfl

/-- The scanner by indices reads what is left of the text. -/
theorem scanFrom_eq (h : text.drop i = s) :
    scanFrom text i = rawly .lex (Reckoner.scanFrom i s) := by
  -- The induction follows what is left of the text, in which the index has no part.
  fun_induction Reckoner.scanFrom i s
  case case1 i =>
    rw [scanFrom, if_neg (Nat.not_lt.mpr (List.drop_eq_nil_iff.mp h))]
    rfl
  case case2 i c rest sign hb ih =>
    rw [scanFrom_blank h hb, ih (drop_add_of_drop h 1)]
  case case3 i c rest sign hb hn literal hpoint =>
    have hc : sign = c := keypadForm_of_startsNumber hn
    refine scanFrom_halt h hb ?_
    rw [scanItem_eq h, if_pos hn, scanNumber_eq h (hc ▸ hn)]
    exact if_pos hpoint
  case case4 i c rest sign hb hn literal hpoint ih =>
    have hc : sign = c := keypadForm_of_startsNumber hn
    have hitem : scanItem text sign i =
        .ok (Token.raw ⟨.number (literalValue literal), i⟩, i + literal.length) := by
      rw [scanItem_eq h, if_pos hn, scanNumber_eq h (hc ▸ hn)]
      exact if_neg hpoint
    have hrest : text.drop (i + literal.length) = rest.dropWhile isNumeral := by
      rw [drop_add_of_drop h, List.length_cons, List.drop_succ_cons, drop_length_takeWhile]
    rw [scanFrom_token h hb hitem (Nat.succ_pos _), ih hrest, rawly_cons]
  case case5 i c rest sign hb hn ha word ih =>
    have hitem : scanItem text sign i =
        .ok (Token.raw ⟨.name (word.map Char.toLower), i⟩, i + word.length) := by
      rw [scanItem_eq h, if_neg hn, if_pos ha, scanName_eq h]
    have hrest : text.drop (i + word.length) = rest.dropWhile Char.isAlphanum := by
      rw [drop_add_of_drop h, List.length_cons, List.drop_succ_cons, drop_length_takeWhile]
    rw [scanFrom_token h hb hitem (Nat.succ_pos _), ih hrest, rawly_cons]
  case case6 i c rest sign hb hn ha item hsign ih =>
    have hitem : scanItem text sign i = .ok (Token.raw ⟨item, i⟩, i + 1) := by
      rw [scanItem_eq h, if_neg hn, if_neg ha, scanSign_eq h, hsign]
    rw [scanFrom_token h hb hitem Nat.one_pos, ih (drop_add_of_drop h 1), rawly_cons]
  case case7 i c rest sign hb hn ha hsign =>
    refine scanFrom_halt h hb ?_
    rw [scanItem_eq h, if_neg hn, if_neg ha, scanSign_eq h, hsign]
    rfl

/-! ### Places -/

/-- The guard before the look-up of an offset is that of the list. -/
theorem sourcePosition_eq (s : Text) (position : Nat) :
    sourcePosition s position = .ok (Reckoner.sourcePosition s position) := by
  rw [sourcePosition, Reckoner.sourcePosition]
  split
  case isTrue hlt =>
    rw [element, List.getElem?_eq_getElem hlt]
    rfl
  case isFalse hge =>
    rw [List.getElem?_eq_none (Nat.le_of_not_lt hge)]
    rfl

end Scanning

end Checked

end Reckoner
