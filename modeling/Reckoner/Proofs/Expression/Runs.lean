import Reckoner.Proofs.Expression.Brackets

/-! Runs of the conversion.  What the tokens at the start of an expression write, and what they leave
waiting, is a run of steps; and where the tokens stand has no part in it. -/

namespace Reckoner

/-! ### Runs -/

/-- The tokens write `out` one after the other, with those of `stack` waiting and after the item
`previous`, and leave those of `stack'` waiting after the item `previous'`. -/
inductive Steps : (stack : List Token) → (previous : Option Item) → (tokens out stack' : List Token) →
    (previous' : Option Item) → Prop
  | nil {stack : List Token} {previous : Option Item} : Steps stack previous [] [] stack previous
  | cons {stack stack1 stack' out more tokens : List Token} {previous previous' : Option Item}
      {token : Token} (h : Step stack previous token out stack1)
      (hmore : Steps stack1 (some token.item) tokens more stack' previous') :
      Steps stack previous (token :: tokens) (out ++ more) stack' previous'

section Runs

variable {stack stack' out tokens tokens' rest output : List Token}
  {previous previous' : Option Item} {token : Token}

theorem Steps.reads (h : Steps stack previous tokens out stack' previous') :
    Reads stack previous tokens out stack' previous' := by
  induction h with
  | nil => exact fun rest => (map_nil_append _).symm
  | cons h _ ih => exact h.reads.trans ih

/-- A conversion that succeeds has taken the steps of the tokens at its start. -/
theorem exists_steps (h : toPostfixFrom stack previous (tokens ++ rest) = .ok output) :
    ∃ out stack' previous' more, Steps stack previous tokens out stack' previous' ∧
      toPostfixFrom stack' previous' rest = .ok more ∧ output = out ++ more := by
  induction tokens generalizing stack previous output with
  | nil => exact ⟨[], stack, previous, output, .nil, h, rfl⟩
  | cons token tokens ih =>
    obtain ⟨out, stack1, output1, hstep, hrest, rfl⟩ := exists_step h
    obtain ⟨out', stack', previous', more, hsteps, hmore, rfl⟩ := ih hrest
    exact ⟨out ++ out', stack', previous', more, .cons hstep hsteps, hmore,
      (List.append_assoc ..).symm⟩

/-! ### Places -/

/-- The token as one that stands in no text. -/
def Token.unplaced (token : Token) : Token := ⟨token.item, -1⟩

theorem map_unplaced (tokens : List Token) :
    tokens.map Token.unplaced = (itemsOf tokens).map (⟨·, -1⟩) := by
  rw [itemsOf, List.map_map]
  rfl

theorem itemsOf_unplaced (tokens : List Token) :
    itemsOf (tokens.map Token.unplaced) = itemsOf tokens := by
  rw [itemsOf, List.map_map]
  rfl

theorem completed_unplaced (stack : List Token) : completed (stack.map Token.unplaced) =
    ((completed stack).1.map Token.unplaced, (completed stack).2.map Token.unplaced) := by
  cases stack with
  | nil => rfl
  | cons top below =>
    rw [List.map_cons, completed, completed, show top.unplaced.item = top.item from rfl]
    split <;> rfl

theorem Step.unplaced (h : Step stack previous token out stack') :
    Step (stack.map Token.unplaced) previous token.unplaced (out.map Token.unplaced)
      (stack'.map Token.unplaced) := by
  have hinside {inside : List Token} (hi : ∀ t ∈ inside, t.isInside = true) :
      ∀ t ∈ inside.map Token.unplaced, t.isInside = true :=
    List.forall_mem_map.mpr hi
  cases h with
  | number => exact .number
  | suffix => exact .suffix
  | constant h => exact .constant h
  | function h => exact .function h
  | negation h => exact .negation h
  | @operator op position h =>
    have hstep : Step (stack.map Token.unplaced) previous ⟨.operator op, -1⟩ _ _ := .operator h
    rwa [List.takeWhile_map, List.dropWhile_map] at hstep
  | opening => exact .opening
  | comma hs hi hp =>
    subst hs
    rw [List.map_append]
    exact .comma rfl (hinside hi) hp
  | @closing inside below paren _ hs hi hp =>
    subst hs
    have hstep : Step (inside.map Token.unplaced ++ paren.unplaced :: below.map Token.unplaced)
        previous ⟨.closing, -1⟩ _ _ := .closing rfl (hinside hi) hp
    rwa [completed_unplaced, ← List.map_append, ← List.map_cons, ← List.map_append] at hstep

theorem Refused.unplaced {error : ParseError} (h : Refused stack token error) :
    Refused (stack.map Token.unplaced) token.unplaced error := by
  cases h with
  | comma h => exact .comma (List.forall_mem_map.mpr h)
  | closing h => exact .closing (List.forall_mem_map.mpr h)
  | negation => exact .negation

/-- The conversion moves tokens and does not look at where they stand. -/
theorem toPostfixFrom_unplaced (stack : List Token) (previous : Option Item) (tokens : List Token) :
    toPostfixFrom (stack.map Token.unplaced) previous (tokens.map Token.unplaced) =
      (toPostfixFrom stack previous tokens).map (List.map Token.unplaced) := by
  induction tokens generalizing stack previous with
  | nil =>
    rw [List.map_nil, toPostfixFrom, toPostfixFrom, List.all_map]
    change (if stack.all Token.isInside then _ else _) = _
    split <;> rfl
  | cons token tokens ih =>
    rw [List.map_cons]
    rcases step_or_refused stack previous token with ⟨out, stack', hstep⟩ | ⟨error, hrefused⟩
    · rw [hstep.unplaced.toPostfixFrom_cons, hstep.toPostfixFrom_cons]
      rw [show token.unplaced.item = token.item from rfl, ih]
      cases toPostfixFrom stack' (some token.item) tokens with
      | error => rfl
      | ok more => exact congrArg Except.ok List.map_append.symm
    · rw [hrefused.unplaced.toPostfixFrom_cons, hrefused.toPostfixFrom_cons]
      rfl

/-- Tokens with the same items have postfix forms with the same items. -/
theorem toPostfix_congr (h : itemsOf tokens = itemsOf tokens') :
    (toPostfix tokens).map itemsOf = (toPostfix tokens').map itemsOf := by
  have hitems (tokens : List Token) : (toPostfix tokens).map itemsOf =
      (toPostfix (tokens.map Token.unplaced)).map itemsOf := by
    have hmoved := toPostfixFrom_unplaced [] none tokens
    rw [List.map_nil] at hmoved
    rw [toPostfix, toPostfix, hmoved]
    cases toPostfixFrom [] none tokens with
    | error => rfl
    | ok output => exact congrArg Except.ok (itemsOf_unplaced output).symm
  rw [hitems tokens, hitems tokens', map_unplaced, map_unplaced, h]

end Runs

end Reckoner
