import Reckoner.Proofs.Expression.Conversion

/-! What the conversion keeps.  Every token but parentheses and commas is written once, a constant
as its number and a prefix minus as a negation, so the postfix form is a permutation of the tokens
so converted.  The open parentheses that wait on the stack count the depth, so a conversion that
succeeds has found the parentheses balanced. -/

namespace Reckoner

/-- What a token after the item `previous` is in the postfix form. -/
def Token.converted (previous : Option Item) (token : Token) : List Token :=
  match token.item with
  | .opening | .closing | .comma => []
  | .name word =>
    match constant? word with
    | some value => [⟨.number value, token.position⟩]
    | none => [token]
  | .operator op =>
    if op = .sub ∧ negates previous = true then [⟨.negation, token.position⟩] else [token]
  | _ => [token]

/-- The tokens after the item `previous`, in their order, as they are in the postfix form. -/
def converted (previous : Option Item) : List Token → List Token
  | [] => []
  | token :: tokens => token.converted previous ++ converted (some token.item) tokens

section Stack

variable {stack stack' out tokens output : List Token} {previous : Option Item} {token : Token}

/-- The tokens of a stack that are to be written. -/
def unwritten (stack : List Token) : List Token := stack.filter Token.isInside

theorem unwritten_of_inside (h : ∀ t ∈ stack, t.isInside = true) : unwritten stack = stack :=
  List.filter_eq_self.mpr h

theorem unwritten_at_opening {inside below : List Token} {paren : Token}
    (hi : ∀ t ∈ inside, t.isInside = true) (hp : paren.isInside = false) :
    unwritten (inside ++ paren :: below) = inside ++ unwritten below := by
  rw [unwritten, List.filter_append, List.filter_eq_self.mpr hi,
    List.filter_cons_of_neg (by simp [hp])]
  rfl

theorem completed_inside (stack : List Token) : ∀ t ∈ (completed stack).1, t.isInside = true := by
  cases stack with
  | nil => simp [completed]
  | cons top below =>
    obtain ⟨item, position⟩ := top
    cases item <;> simp [completed, Item.isPrefixed, Token.isInside, Item.isOpening]

theorem completed_append (stack : List Token) :
    (completed stack).1 ++ (completed stack).2 = stack := by
  cases stack with
  | nil => rfl
  | cons top below =>
    rw [completed]
    split <;> rfl

/-- A step writes no token that did not wait and was not read, and loses none. -/
theorem Step.perm (h : Step stack previous token out stack') :
    (out ++ unwritten stack').Perm (token.converted previous ++ unwritten stack) := by
  cases h with
  | number | suffix => exact .refl _
  | constant h | function h => simp [Token.converted, h, unwritten, Token.isInside, Item.isOpening]
  | negation h => simp [Token.converted, h, unwritten, Token.isInside, Item.isOpening]
  | opening => simp [Token.converted, unwritten, Token.isInside, Item.isOpening]
  | @operator op position h =>
    have hc : Token.converted previous ⟨.operator op, position⟩ = [⟨.operator op, position⟩] :=
      if_neg fun hop => by simp [h hop.1] at hop
    have hs : unwritten stack =
        stack.takeWhile op.isAfter ++ unwritten (stack.dropWhile op.isAfter) := by
      conv => lhs; rw [← List.takeWhile_append_dropWhile (p := op.isAfter) (l := stack)]
      rw [unwritten, List.filter_append, List.filter_eq_self.mpr fun t ht =>
        Operator.isInside_of_isAfter (List.mem_takeWhile_imp ht)]
      rfl
    rw [hc, hs]
    exact List.perm_middle
  | comma hs hi hp =>
    rw [hs, unwritten_at_opening hi hp, unwritten, List.filter_cons_of_neg (by simp [hp])]
    exact .refl _
  | @closing inside below paren position hs hi hp =>
    have hb : unwritten below = (completed below).1 ++ unwritten (completed below).2 := by
      conv => lhs; rw [← completed_append below]
      rw [unwritten, List.filter_append, List.filter_eq_self.mpr (completed_inside below)]
      rfl
    rw [hs, unwritten_at_opening hi hp, hb, List.append_assoc]
    exact .refl _

/-- A conversion writes what waited and what its tokens become. -/
theorem toPostfixFrom_perm (h : toPostfixFrom stack previous tokens = .ok output) :
    output.Perm (converted previous tokens ++ unwritten stack) := by
  induction tokens generalizing stack previous output with
  | nil =>
    obtain ⟨hi, rfl⟩ := toPostfixFrom_nil.mp h
    rw [unwritten_of_inside hi]
    exact .refl _
  | cons token tokens ih =>
    obtain ⟨out, stack', rest, hstep, hrest, rfl⟩ := exists_step h
    have h1 : (out ++ rest).Perm
        (out ++ (unwritten stack' ++ converted (some token.item) tokens)) :=
      ((ih hrest).trans List.perm_append_comm).append_left out
    rw [← List.append_assoc] at h1
    refine (h1.trans (hstep.perm.append_right _)).trans ?_
    rw [converted, List.append_assoc, List.append_assoc]
    exact List.perm_append_comm.append_left _

theorem toPostfix_perm (h : toPostfix tokens = .ok output) :
    output.Perm (converted none tokens) := by
  have := toPostfixFrom_perm h
  rwa [show unwritten [] = [] from rfl, List.append_nil] at this

/-! ### Depth -/

/-- Whether the parentheses of the tokens are balanced with `depth` more open before them, and every
comma lies within one. -/
def balancedFrom (depth : Nat) : List Token → Bool
  | [] => depth == 0
  | token :: tokens =>
    match token.item with
    | .opening => balancedFrom (depth + 1) tokens
    | .closing => 0 < depth && balancedFrom (depth - 1) tokens
    | .comma => 0 < depth && balancedFrom depth tokens
    | _ => balancedFrom depth tokens

/-- How many open parentheses wait on a stack. -/
def depthOf (stack : List Token) : Nat := stack.countP fun t => t.item.isOpening

theorem depthOf_of_inside (h : ∀ t ∈ stack, t.isInside = true) : depthOf stack = 0 := by
  rw [depthOf, List.countP_eq_zero]
  intro t ht
  have := h t ht
  simpa [Token.isInside] using this

theorem depthOf_append (s t : List Token) : depthOf (s ++ t) = depthOf s + depthOf t :=
  List.countP_append

theorem depthOf_cons_of_inside (h : token.isInside = true) :
    depthOf (token :: stack) = depthOf stack :=
  List.countP_cons_of_neg (by simpa [Token.isInside] using h)

theorem depthOf_cons_of_outside (h : token.isInside = false) :
    depthOf (token :: stack) = depthOf stack + 1 :=
  List.countP_cons_of_pos (by simpa [Token.isInside] using h)

theorem depthOf_at_opening {inside below : List Token} {paren : Token}
    (hi : ∀ t ∈ inside, t.isInside = true) (hp : paren.isInside = false) :
    depthOf (inside ++ paren :: below) = depthOf below + 1 := by
  rw [depthOf_append, depthOf_of_inside hi, Nat.zero_add, depthOf_cons_of_outside hp]

/-- The depth after an item at a depth, or why there is none: outside all parentheses none can be
closed, and a comma is misplaced. -/
def depthAfter (depth : Nat) : Item → Except ParseError Nat
  | .opening => .ok (depth + 1)
  | .closing => if depth = 0 then .error .mismatchedParentheses else .ok (depth - 1)
  | .comma => if depth = 0 then .error .misplacedComma else .ok depth
  | _ => .ok depth

/-- A step changes the depth as its token does. -/
theorem Step.depth (h : Step stack previous token out stack') :
    depthAfter (depthOf stack) token.item = .ok (depthOf stack') := by
  cases h with
  | number | suffix | constant => rfl
  | function | negation => rw [depthOf_cons_of_inside rfl]; rfl
  | opening => rw [depthOf_cons_of_outside rfl]; rfl
  | @operator op position h =>
    have hs : depthOf stack = depthOf (stack.dropWhile op.isAfter) := by
      conv => lhs; rw [← List.takeWhile_append_dropWhile (p := op.isAfter) (l := stack)]
      rw [depthOf_append, depthOf_of_inside fun t ht =>
        Operator.isInside_of_isAfter (List.mem_takeWhile_imp ht), Nat.zero_add]
    rw [depthOf_cons_of_inside rfl, ← hs]
    rfl
  | comma hs hi hp =>
    rw [hs, depthOf_at_opening hi hp, depthOf_cons_of_outside hp]
    rfl
  | @closing inside below paren position hs hi hp =>
    have hb : depthOf below = depthOf (completed below).2 := by
      conv => lhs; rw [← completed_append below]
      rw [depthOf_append, depthOf_of_inside (completed_inside below), Nat.zero_add]
    rw [hs, depthOf_at_opening hi hp, hb]
    rfl

theorem balancedFrom_cons {depth depth' : Nat} (h : depthAfter depth token.item = .ok depth')
    (tokens : List Token) : balancedFrom depth (token :: tokens) = balancedFrom depth' tokens := by
  rw [balancedFrom]
  generalize token.item = item at h ⊢
  cases item with
  | closing | comma =>
    cases depth with
    | zero => cases h
    | succ depth =>
      obtain rfl := Except.ok.inj h
      simp
  | _ =>
    obtain rfl := Except.ok.inj h
    rfl

theorem balancedFrom_of_toPostfixFrom (h : toPostfixFrom stack previous tokens = .ok output) :
    balancedFrom (depthOf stack) tokens = true := by
  induction tokens generalizing stack previous output with
  | nil =>
    obtain ⟨hi, -⟩ := toPostfixFrom_nil.mp h
    rw [depthOf_of_inside hi]
    rfl
  | cons token tokens ih =>
    obtain ⟨out, stack', rest, hstep, hrest, -⟩ := exists_step h
    rw [balancedFrom_cons hstep.depth]
    exact ih hrest

theorem balancedFrom_of_toPostfix (h : toPostfix tokens = .ok output) :
    balancedFrom 0 tokens = true :=
  balancedFrom_of_toPostfixFrom h

end Stack

end Reckoner
