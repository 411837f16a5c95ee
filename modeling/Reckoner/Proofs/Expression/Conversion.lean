import Mathlib.Data.List.TakeWhile
import Reckoner.Expression.Postfix
import Reckoner.Proofs.Results

/-! The conversion to postfix form, one token at a time.  `Step` says what a token does: what it
writes and what it leaves waiting on the stack.  The conversion is a run of steps, so that what each
step keeps, a whole conversion keeps.  `Reads` is the effect of several tokens, whatever comes after
them. -/

namespace Reckoner

/-! ### Which waiting tokens an operator lets go first -/

theorem Operator.yieldsTo_operator (op other : Operator) :
    op.yieldsTo (.ofNat other.precedence) =
      match op.associativity with
      | .left => decide (op.precedence ≤ other.precedence)
      | .right => decide (op.precedence < other.precedence) := by
  cases op <;> cases other <;> decide +kernel

theorem Operator.yieldsTo_prefixed (op : Operator) :
    op.yieldsTo prefixedPrecedence = decide (op.precedence ≤ 3) := by
  cases op <;> decide +kernel

namespace Operator

/-- An operator compares with waiting operators by their precedences alone. -/
theorem isAfter_operator (op other : Operator) (position : Int) :
    op.isAfter ⟨.operator other, position⟩ =
      match op.associativity with
      | .left => decide (op.precedence ≤ other.precedence)
      | .right => decide (op.precedence < other.precedence) :=
  op.yieldsTo_operator other

theorem isAfter_name (op : Operator) (word : Text) (position : Int) :
    op.isAfter ⟨.name word, position⟩ = decide (op.precedence ≤ 3) := op.yieldsTo_prefixed

theorem isAfter_negation (op : Operator) (position : Int) :
    op.isAfter ⟨.negation, position⟩ = decide (op.precedence ≤ 3) := op.yieldsTo_prefixed

/-- Sums and differences let every operator, function and negation go first. -/
theorem isAfter_of_additive {op : Operator} (h : op = .add ∨ op = .sub) (t : Token) :
    op.isAfter t = t.item.precedence?.isSome := by
  obtain ⟨item, position⟩ := t
  cases item with
  | operator w =>
    rw [isAfter_operator]
    rcases h with rfl | rfl <;> cases w <;> rfl
  | name w =>
    rw [isAfter_name]
    rcases h with rfl | rfl <;> rfl
  | negation =>
    rw [isAfter_negation]
    rcases h with rfl | rfl <;> rfl
  | _ => rfl

theorem isAfter_of_multiplicative {op : Operator} (h : op = .mul ∨ op = .div) (t : Token) :
    op.isAfter t = Operator.mul.isAfter t := by
  obtain ⟨item, position⟩ := t
  cases item with
  | operator w =>
    rw [isAfter_operator, isAfter_operator]
    rcases h with rfl | rfl <;> rfl
  | name w =>
    rw [isAfter_name, isAfter_name]
    rcases h with rfl | rfl <;> rfl
  | negation =>
    rw [isAfter_negation, isAfter_negation]
    rcases h with rfl | rfl <;> rfl
  | _ => rfl

/-- A power waits for no token: nothing binds more tightly, and powers group to the right. -/
theorem isAfter_pow (t : Token) : Operator.pow.isAfter t = false := by
  obtain ⟨item, position⟩ := t
  cases item with
  | operator w =>
    rw [isAfter_operator]
    cases w <;> rfl
  | name w => rw [isAfter_name]; rfl
  | negation => rw [isAfter_negation]; rfl
  | _ => rfl

theorem add_isAfter_of_mul_isAfter {t : Token} (h : Operator.mul.isAfter t = true) :
    Operator.add.isAfter t = true := by
  rw [isAfter_of_additive (.inl rfl)]
  obtain ⟨item, position⟩ := t
  cases item <;> first | rfl | exact h

theorem isInside_of_isAfter {op : Operator} {t : Token} (h : op.isAfter t = true) :
    t.isInside = true := by
  obtain ⟨item, position⟩ := t
  cases item <;> first | rfl | exact h

end Operator

/-! ### Steps -/

/-- What a token does after the item `previous`, with the tokens of `stack` waiting: it writes the
tokens `out` and leaves those of `stack'` waiting. -/
inductive Step (stack : List Token) (previous : Option Item) :
    (token : Token) → (out stack' : List Token) → Prop
  | number {value : Double} {position : Int} :
      Step stack previous ⟨.number value, position⟩ [⟨.number value, position⟩] stack
  | suffix {mark : Suffix} {position : Int} :
      Step stack previous ⟨.suffix mark, position⟩ [⟨.suffix mark, position⟩] stack
  | constant {word : Text} {value : Double} {position : Int} (h : constant? word = some value) :
      Step stack previous ⟨.name word, position⟩ [⟨.number value, position⟩] stack
  | function {word : Text} {position : Int} (h : constant? word = none) :
      Step stack previous ⟨.name word, position⟩ [] (⟨.name word, position⟩ :: stack)
  | negation {position : Int} (h : negates previous = true) :
      Step stack previous ⟨.operator .sub, position⟩ [] (⟨.negation, position⟩ :: stack)
  | operator {op : Operator} {position : Int} (h : op = .sub → negates previous = false) :
      Step stack previous ⟨.operator op, position⟩ (stack.takeWhile op.isAfter)
        (⟨.operator op, position⟩ :: stack.dropWhile op.isAfter)
  | opening {position : Int} :
      Step stack previous ⟨.opening, position⟩ [] (⟨.opening, position⟩ :: stack)
  | comma {inside below : List Token} {paren : Token} {position : Int}
      (hs : stack = inside ++ paren :: below) (hi : ∀ t ∈ inside, t.isInside = true)
      (hp : paren.isInside = false) :
      Step stack previous ⟨.comma, position⟩ inside (paren :: below)
  | closing {inside below : List Token} {paren : Token} {position : Int}
      (hs : stack = inside ++ paren :: below) (hi : ∀ t ∈ inside, t.isInside = true)
      (hp : paren.isInside = false) :
      Step stack previous ⟨.closing, position⟩ (inside ++ (completed below).1) (completed below).2

section Steps

variable {stack stack' out tokens output : List Token} {previous : Option Item} {token : Token}

theorem map_nil_append {ε α : Type} (r : Except ε (List α)) : r.map ([] ++ ·) = r := by
  cases r <;> rfl

theorem takeWhile_isInside {inside below : List Token} {paren : Token}
    (hi : ∀ t ∈ inside, t.isInside = true) (hp : paren.isInside = false) :
    (inside ++ paren :: below).takeWhile Token.isInside = inside := by
  rw [List.takeWhile_append_of_pos hi, List.takeWhile_cons_of_neg (by simp [hp]), List.append_nil]

theorem dropWhile_isInside {inside below : List Token} {paren : Token}
    (hi : ∀ t ∈ inside, t.isInside = true) (hp : paren.isInside = false) :
    (inside ++ paren :: below).dropWhile Token.isInside = paren :: below := by
  rw [List.dropWhile_append_of_pos hi, List.dropWhile_cons_of_neg (by simp [hp])]

theorem stack_at_opening {paren : Token} {below : List Token}
    (h : stack.dropWhile Token.isInside = paren :: below) :
    stack = stack.takeWhile Token.isInside ++ paren :: below ∧
      (∀ t ∈ stack.takeWhile Token.isInside, t.isInside = true) ∧ paren.isInside = false := by
  refine ⟨?_, fun t ht => List.mem_takeWhile_imp ht, ?_⟩
  · rw [← h, List.takeWhile_append_dropWhile]
  · have := List.head?_dropWhile_not Token.isInside stack
    rw [h] at this
    simpa using this

/-- The conversion takes a step and goes on from there. -/
theorem Step.toPostfixFrom_cons (h : Step stack previous token out stack') (tokens : List Token) :
    toPostfixFrom stack previous (token :: tokens) =
      (toPostfixFrom stack' (some token.item) tokens).map (out ++ ·) := by
  cases h with
  | number | suffix => rfl
  | constant h => simp only [toPostfixFrom, h]; rfl
  | function h => simp only [toPostfixFrom, h, map_nil_append]
  | negation h =>
    rw [map_nil_append]
    simp [toPostfixFrom, h]
  | @operator op position h =>
    have hn : (decide (op = .sub) && negates previous) = false := by
      by_cases hop : op = .sub
      · simp [h hop]
      · simp [hop]
    simp only [toPostfixFrom, hn, Bool.false_eq_true, if_false]
  | opening => simp only [toPostfixFrom, map_nil_append]
  | comma hs hi hp =>
    subst hs
    simp only [toPostfixFrom, dropWhile_isInside hi hp, takeWhile_isInside hi hp]
  | closing hs hi hp =>
    subst hs
    simp only [toPostfixFrom, dropWhile_isInside hi hp, takeWhile_isInside hi hp]

/-- Why a token takes no step: no parenthesis waits for it, or it is no token of a text. -/
inductive Refused (stack : List Token) : (token : Token) → ParseError → Prop
  | comma {position : Int} (h : ∀ t ∈ stack, t.isInside = true) :
      Refused stack ⟨.comma, position⟩ .misplacedComma
  | closing {position : Int} (h : ∀ t ∈ stack, t.isInside = true) :
      Refused stack ⟨.closing, position⟩ .mismatchedParentheses
  | negation {position : Int} : Refused stack ⟨.negation, position⟩ .unexpectedToken

theorem Refused.toPostfixFrom_cons {error : ParseError} (h : Refused stack token error)
    (tokens : List Token) : toPostfixFrom stack previous (token :: tokens) = .error error := by
  cases h with
  | comma h | closing h => simp only [toPostfixFrom, List.dropWhile_eq_nil_iff.mpr h]
  | negation => rfl

theorem step_or_refused (stack : List Token) (previous : Option Item) (token : Token) :
    (∃ out stack', Step stack previous token out stack') ∨ ∃ error, Refused stack token error := by
  obtain ⟨item, position⟩ := token
  cases item with
  | number value => exact .inl ⟨_, _, .number⟩
  | suffix mark => exact .inl ⟨_, _, .suffix⟩
  | name word =>
    cases hw : constant? word with
    | none => exact .inl ⟨_, _, .function hw⟩
    | some value => exact .inl ⟨_, _, .constant hw⟩
  | opening => exact .inl ⟨_, _, .opening⟩
  | operator op =>
    by_cases hop : op = .sub ∧ negates previous = true
    · obtain ⟨rfl, hn⟩ := hop
      exact .inl ⟨_, _, .negation hn⟩
    · exact .inl ⟨_, _, .operator fun hs => by simpa [hs] using hop⟩
  | comma =>
    cases hd : stack.dropWhile Token.isInside with
    | nil => exact .inr ⟨_, .comma (List.dropWhile_eq_nil_iff.mp hd)⟩
    | cons paren below =>
      obtain ⟨hs, hi, hp⟩ := stack_at_opening hd
      exact .inl ⟨_, _, .comma hs hi hp⟩
  | closing =>
    cases hd : stack.dropWhile Token.isInside with
    | nil => exact .inr ⟨_, .closing (List.dropWhile_eq_nil_iff.mp hd)⟩
    | cons paren below =>
      obtain ⟨hs, hi, hp⟩ := stack_at_opening hd
      exact .inl ⟨_, _, .closing hs hi hp⟩
  | negation => exact .inr ⟨_, .negation⟩

/-- A conversion that succeeds has taken a step at its first token. -/
theorem exists_step (h : toPostfixFrom stack previous (token :: tokens) = .ok output) :
    ∃ out stack' rest, Step stack previous token out stack' ∧
      toPostfixFrom stack' (some token.item) tokens = .ok rest ∧ output = out ++ rest := by
  rcases step_or_refused stack previous token with ⟨out, stack', hstep⟩ | ⟨error, hrefused⟩
  · rw [hstep.toPostfixFrom_cons] at h
    obtain ⟨rest, hrest, rfl⟩ := map_eq_ok h
    exact ⟨out, stack', rest, hstep, hrest, rfl⟩
  · rw [hrefused.toPostfixFrom_cons] at h
    cases h

/-- At the end of the tokens no open parenthesis may wait, and what waits is written. -/
theorem toPostfixFrom_nil : toPostfixFrom stack previous [] = .ok output ↔
    (∀ t ∈ stack, t.isInside = true) ∧ output = stack := by
  rw [toPostfixFrom, ← List.all_eq_true]
  cases stack.all Token.isInside with
  | true => simp [eq_comm]
  | false => simp

/-- Only a negation is refused as a token. -/
theorem negation_mem_of_unexpectedToken
    (h : toPostfixFrom stack previous tokens = .error .unexpectedToken) :
    ∃ t ∈ tokens, t.item = .negation := by
  induction tokens generalizing stack previous with
  | nil =>
    rw [toPostfixFrom] at h
    split at h <;> cases h
  | cons token tokens ih =>
    rcases step_or_refused stack previous token with ⟨out, stack', hstep⟩ | ⟨error, hrefused⟩
    · rw [hstep.toPostfixFrom_cons] at h
      obtain ⟨t, ht, hitem⟩ := ih (map_eq_error h)
      exact ⟨t, .tail _ ht, hitem⟩
    · rw [hrefused.toPostfixFrom_cons] at h
      cases h
      cases hrefused
      exact ⟨_, .head _, rfl⟩

end Steps

/-! ### Several tokens -/

/-- Reading the tokens `s` after `previous`, with those of `stack` waiting, writes `out` and leaves
those of `stack'` waiting after the item `previous'`, whatever comes next. -/
def Reads (stack : List Token) (previous : Option Item) (s out stack' : List Token)
    (previous' : Option Item) : Prop :=
  ∀ rest, toPostfixFrom stack previous (s ++ rest) =
    (toPostfixFrom stack' previous' rest).map (out ++ ·)

theorem Step.reads {stack stack' out : List Token} {previous : Option Item} {token : Token}
    (h : Step stack previous token out stack') :
    Reads stack previous [token] out stack' (some token.item) :=
  fun rest => h.toPostfixFrom_cons rest

theorem Reads.trans {stack stack1 stack2 s t out1 out2 : List Token}
    {previous previous1 previous2 : Option Item}
    (h1 : Reads stack previous s out1 stack1 previous1)
    (h2 : Reads stack1 previous1 t out2 stack2 previous2) :
    Reads stack previous (s ++ t) (out1 ++ out2) stack2 previous2 := by
  intro rest
  rw [List.append_assoc, h1, h2]
  cases toPostfixFrom stack2 previous2 rest with
  | error => rfl
  | ok p => exact congrArg Except.ok (List.append_assoc out1 out2 p).symm

end Reckoner
