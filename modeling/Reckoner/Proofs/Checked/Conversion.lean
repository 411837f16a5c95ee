import Reckoner.Proofs.Checked.Scanning
import Reckoner.Proofs.Expression.Conversion

/-! The conversion to postfix form takes nothing from an empty stack and finds every operator and
constant that it looks up, so it writes what the conversion of tokens writes.  What it refuses is a
parenthesis or a comma that does not fit; a text has no other token that it could refuse. -/

namespace Reckoner

/-! ### Look-ups -/

namespace Checked

theorem entry_of_lookup {α : Type} {table : List (Text × α)} {key : Text} {a : α}
    (h : table.lookup key = some a) : entry table key = .ok a := by
  rw [entry, h]
  rfl

/-- Every operator that is read is in the table. -/
theorem entry_operators (op : Operator) : entry operators [op.symbol] = .ok op := by
  cases op <;> rfl

theorem lookup_constants (word : Text) : constants.lookup word = constant? word := by
  by_cases hpi : word = "pi".toList
  · subst hpi
    rfl
  · by_cases he : word = "e".toList
    · subst he
      rfl
    · rw [constant?, if_neg hpi, if_neg he, List.lookup_eq_none_iff]
      simpa [constants] using ⟨hpi, he⟩

/-! ### Stacks -/

section Stacks

/-- The loop takes from a stack that is not empty. -/
theorem popWhile_cons (p : RawToken → Checked Bool) (waiting : RawToken) (below : List RawToken) :
    popWhile p (waiting :: below) = do
      if ← p waiting then
        let (popped, rest) ← popWhile p below
        return (waiting :: popped, rest)
      else return ([], waiting :: below) := by
  rw [popWhile.eq_def]
  rfl

theorem drain_cons (waiting : RawToken) (below : List RawToken) :
    drain (waiting :: below) =
      if waiting.kind = .opening then fail (.parse .mismatchedParentheses)
      else do return waiting :: (← drain below) := by
  rw [drain.eq_def]
  rfl

theorem precedence?_raw (t : Token) : precedence? t.raw = .ok t.item.precedence? := by
  obtain ⟨item, position⟩ := t
  cases item
  case operator op => cases op <;> rfl
  all_goals rfl

theorem isAfter_raw (op : Operator) (t : Token) : isAfter op t.raw = .ok (op.isAfter t) := by
  rw [isAfter, precedence?_raw, Operator.isAfter]
  cases t.item.precedence? <;> rfl

theorem isInside_raw (t : Token) : isInside t.raw = .ok t.isInside := by
  obtain ⟨item, position⟩ := t
  cases item <;> rfl

theorem popWhile_raw {p : RawToken → Checked Bool} {q : Token → Bool}
    (h : ∀ t, p (Token.raw t) = .ok (q t)) (stack : List Token) :
    popWhile p (stack.map Token.raw) =
      .ok ((stack.takeWhile q).map Token.raw, (stack.dropWhile q).map Token.raw) := by
  induction stack with
  | nil =>
    rw [popWhile.eq_def]
    rfl
  | cons t below ih =>
    rw [List.map_cons, popWhile_cons, h, ih]
    cases hq : q t with
    | true => simp [bind, Except.bind, pure, Except.pure, hq]
    | false => simp [bind, Except.bind, pure, Except.pure, hq]

theorem drain_raw (stack : List Token) : drain (stack.map Token.raw) =
    if stack.all Token.isInside then .ok (stack.map Token.raw)
    else fail (.parse .mismatchedParentheses) := by
  induction stack with
  | nil =>
    rw [drain.eq_def]
    rfl
  | cons t below ih =>
    have hkind : t.raw.kind = .opening ↔ t.isInside = false := by
      obtain ⟨item, position⟩ := t
      cases item <;> simp [Token.raw, Item.kind, Token.isInside, Item.isOpening]
    rw [List.map_cons, drain_cons, ih, List.all_cons]
    cases ht : t.isInside with
    | false => rw [if_pos (hkind.mpr ht)]; rfl
    | true =>
      rw [if_neg fun hopening => by simp [hkind.mp hopening] at ht, Bool.true_and]
      split <;> rfl

end Stacks

/-! ### One token -/

section Steps

variable {stack out stack' : List Token} {previous : Option Token} {token : Token}

theorem awaitsOperand_kind (item : Item) : item.kind.awaitsOperand = item.awaitsOperand := by
  cases item <;> rfl

theorem isNegation_raw (op : Operator) (position : Int) (previous : Option Token) :
    isNegation (previous.map Token.raw) (Token.raw ⟨.operator op, position⟩) =
      (decide (op = .sub) && negates (previous.map (·.item))) := by
  have hprevious : (previous.map Token.raw).all (·.kind.awaitsOperand) =
      negates (previous.map (·.item)) := by
    cases previous with
    | none => rfl
    | some t => exact awaitsOperand_kind t.item
  rw [isNegation, hprevious]
  cases op <;> rfl

theorem completed_raw (stack : List Token) : completed (stack.map Token.raw) =
    .ok ((Reckoner.completed stack).1.map Token.raw,
      (Reckoner.completed stack).2.map Token.raw) := by
  cases stack with
  | nil => rfl
  | cons t below =>
    obtain ⟨item, position⟩ := t
    cases item <;> rfl

/-- A step does to the tokens that are taken apart what it does to the tokens. -/
theorem convert_of_step (h : Step stack (previous.map (·.item)) token out stack') :
    convert (stack.map Token.raw) (previous.map Token.raw) token.raw =
      .ok (out.map Token.raw, stack'.map Token.raw) := by
  cases h with
  | number | suffix | opening => rfl
  | @constant word value position hword =>
    have hlookup : constants.lookup word = some value := (lookup_constants word).trans hword
    simp [convert, Token.raw, Item.kind, Item.content, textOf, hlookup, entry_of_lookup hlookup,
      bind, Except.bind, pure, Except.pure]
  | @function word position hword =>
    have hlookup : constants.lookup word = none := (lookup_constants word).trans hword
    simp [convert, Token.raw, Item.kind, Item.content, textOf, hlookup, pure, Except.pure]
  | @negation position hn =>
    have hneg := isNegation_raw .sub position previous
    rw [hn] at hneg
    exact if_pos hneg
  | @operator op position hn =>
    have hneg :
        isNegation (previous.map Token.raw) (Token.raw ⟨.operator op, position⟩) = false := by
      rw [isNegation_raw]
      by_cases hop : op = .sub
      · simp [hn hop]
      · simp [hop]
    refine (if_neg (by simp [hneg])).trans ?_
    simp only [Token.raw, Item.content, textOf, entry_operators, bind, Except.bind,
      popWhile_raw (isAfter_raw op)]
    rfl
  | @comma inside below paren position hs hi hp =>
    subst hs
    simp only [convert, Token.raw, Item.kind]
    rw [popWhile_raw isInside_raw, dropWhile_isInside hi hp, takeWhile_isInside hi hp]
    rfl
  | @closing inside below paren position hs hi hp =>
    subst hs
    simp only [convert, Token.raw, Item.kind]
    rw [popWhile_raw isInside_raw, dropWhile_isInside hi hp, takeWhile_isInside hi hp]
    simp only [bind, Except.bind, List.map_cons, List.isEmpty_cons, pop, pure, Except.pure,
      completed_raw, List.map_append]
    rfl

theorem convert_of_refused {error : ParseError} (h : Refused stack token error) :
    convert (stack.map Token.raw) (previous.map Token.raw) token.raw = fail (.parse error) := by
  cases h with
  | comma h | closing h =>
    simp only [convert, Token.raw, Item.kind]
    rw [popWhile_raw isInside_raw, List.dropWhile_eq_nil_iff.mpr h]
    rfl
  | negation => rfl

end Steps

/-! ### A whole conversion -/

/-- The conversion of the tokens that are taken apart writes the tokens that are written. -/
theorem toPostfixFrom_raw (stack : List Token) (previous : Option Token) (tokens : List Token) :
    toPostfixFrom (stack.map Token.raw) (previous.map Token.raw) (tokens.map Token.raw) =
      rawly .parse (Reckoner.toPostfixFrom stack (previous.map (·.item)) tokens) := by
  induction tokens generalizing stack previous with
  | nil =>
    rw [List.map_nil, toPostfixFrom, drain_raw, Reckoner.toPostfixFrom]
    split <;> rfl
  | cons token tokens ih =>
    rw [List.map_cons, toPostfixFrom]
    rcases step_or_refused stack (previous.map (·.item)) token with
      ⟨out, stack', h⟩ | ⟨error, h⟩
    · have hrest : toPostfixFrom (stack'.map Token.raw) (some token.raw) (tokens.map Token.raw) =
          rawly .parse (Reckoner.toPostfixFrom stack' (some token.item) tokens) :=
        ih stack' (some token)
      rw [convert_of_step h, h.toPostfixFrom_cons, rawly_append, ← hrest]
      simp only [bind, Except.bind]
      cases toPostfixFrom (stack'.map Token.raw) (some token.raw) (tokens.map Token.raw) <;> rfl
    · rw [convert_of_refused h, h.toPostfixFrom_cons]
      rfl

/-! ### The postfix form of a text -/

/-- The stages halt with the errors of the expression, at the places where it has them. -/
theorem explain_eq (s : Text) : explain s = rawly id (Reckoner.explain s) := by
  rw [explain, scanFrom_eq (s := normalized s) rfl, Reckoner.explain, scan]
  cases Reckoner.scanFrom 0 (normalized s) with
  | error error =>
    simp only [rawly, fail, sourcePosition_eq]
    rfl
  | ok tokens =>
    have hconverted : toPostfixFrom [] none (tokens.map Token.raw) =
        rawly .parse (toPostfix tokens) := toPostfixFrom_raw [] none tokens
    simp only [rawly, pure, Except.pure, hconverted]
    cases toPostfix tokens <;> rfl

/-- No token of a text is a negation, so none is refused. -/
theorem explain_ne_unexpectedToken (s : Text) :
    Reckoner.explain s ≠ .error (.parse .unexpectedToken) := by
  rw [Reckoner.explain]
  cases hscan : scan (normalized s) with
  | error error => nofun
  | ok tokens =>
    intro h
    have hrefused : toPostfix tokens = .error .unexpectedToken := by
      cases hp : toPostfix tokens with
      | ok output => simp [hp, Except.mapError] at h
      | error error => simpa [hp, Except.mapError] using h
    obtain ⟨t, ht, hitem⟩ := negation_mem_of_unexpectedToken hrefused
    exact (scanned_of_scanFrom hscan).item_ne_negation t ht hitem

end Checked

end Reckoner
