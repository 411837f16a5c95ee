import Mathlib.Tactic.Ring
import Reckoner.Proofs.Expression.Runs

/-! Parentheses around a single number.  A closed parenthesis completes the function or negation that
waits right below it, so that the parentheses make a difference just where such a token would have
waited for more: before a power or a suffix, or where an operand follows without an operator.  There
they let it go first, and the two postfix forms are told apart by counting which tokens it comes
before. -/

namespace Reckoner

/-- Whether a token is a function or a negation. -/
def Token.isPrefixed (token : Token) : Bool := token.item.isPrefixed

/-- Whether a waiting function or negation takes its operand when this item follows the operand. -/
def Item.releases : Item → Bool
  | closing | comma => true
  | operator op => op != .pow
  | _ => false

/-- Whether an item behind the operand of a waiting function or negation goes before that token. -/
def Item.goesFirst : Item → Bool
  | number _ | suffix _ => true
  | operator op => op == .pow
  | name word => (constant? word).isSome
  | _ => false

section Parentheses

variable {stack stack' out tokens tokens' after late early upper lower more output : List Token}
  {previous previous' : Option Item} {token top : Token} {k : ℕ}

/-! ### Functions and negations behind other tokens -/

/-- How many tokens are functions or negations. -/
def prefixedCount (tokens : List Token) : ℕ := tokens.countP Token.isPrefixed

/-- How many tokens are neither functions nor negations. -/
def otherCount (tokens : List Token) : ℕ := tokens.countP fun t => !t.isPrefixed

/-- How many tokens of `stack` are to be written that are neither functions nor negations. -/
def pendingCount (stack : List Token) : ℕ := stack.countP fun t => t.isInside && !t.isPrefixed

/-- How often a function or a negation stands behind another token, over all pairs. -/
def delays : List Token → ℕ
  | [] => 0
  | token :: tokens => (if token.isPrefixed then 0 else prefixedCount tokens) + delays tokens

theorem prefixedCount_append (s t : List Token) :
    prefixedCount (s ++ t) = prefixedCount s + prefixedCount t :=
  List.countP_append

theorem pendingCount_append (s t : List Token) :
    pendingCount (s ++ t) = pendingCount s + pendingCount t :=
  List.countP_append

theorem delays_append (s t : List Token) :
    delays (s ++ t) = delays s + otherCount s * prefixedCount t + delays t := by
  induction s with
  | nil => simp [delays, otherCount]
  | cons token s ih =>
    rw [List.cons_append, delays, delays, ih, prefixedCount_append]
    cases h : token.isPrefixed with
    | true => simp [otherCount, h]
    | false => simp [otherCount, h]; ring

theorem delays_of_itemsOf (h : itemsOf tokens = itemsOf tokens') : delays tokens = delays tokens' := by
  have hcount {tokens tokens' : List Token} (h : itemsOf tokens = itemsOf tokens') :
      prefixedCount tokens = prefixedCount tokens' := by
    have hitems (tokens : List Token) :
        prefixedCount tokens = (itemsOf tokens).countP Item.isPrefixed :=
      List.countP_map.symm
    rw [hitems, hitems, h]
  induction tokens generalizing tokens' with
  | nil =>
    cases tokens' with
    | nil => rfl
    | cons => cases h
  | cons token tokens ih =>
    cases tokens' with
    | nil => cases h
    | cons token' tokens' =>
      obtain ⟨hitem, hrest⟩ := List.cons.inj h
      rw [delays, delays, ih hrest, hcount hrest, Token.isPrefixed, hitem]
      rfl

theorem otherCount_of_inside (h : ∀ t ∈ stack, t.isInside = true) :
    otherCount stack = pendingCount stack :=
  List.countP_congr fun t ht => by simp [h t ht]

/-- The tokens `late` have one function or negation more than `early`, and in them functions and
negations stand behind other tokens `k` times more often at least. -/
structure Ahead (k : ℕ) (late early : List Token) : Prop where
  count : prefixedCount late = prefixedCount early + 1
  delayed : delays early + k ≤ delays late

theorem Ahead.append (h : Ahead k late early) (s : List Token) :
    Ahead (otherCount s + k) (s ++ late) (s ++ early) where
  count := by rw [prefixedCount_append, prefixedCount_append, h.count, Nat.add_assoc]
  delayed := by
    have := h.delayed
    rw [delays_append, delays_append, h.count, Nat.mul_succ]
    omega

theorem Ahead.insert (htop : top.isPrefixed = true) (upper lower : List Token) :
    Ahead (otherCount upper) (upper ++ top :: lower) (upper ++ lower) := by
  have hcount : prefixedCount (top :: lower) = prefixedCount lower + 1 :=
    List.countP_cons_of_pos htop
  refine ⟨?_, ?_⟩
  · rw [prefixedCount_append, prefixedCount_append, hcount, Nat.add_assoc]
  · rw [delays_append, delays_append, hcount, delays, if_pos htop, Nat.mul_succ]
    omega

theorem Ahead.exchange {other : Token} (h : Ahead k late early) (htop : top.isPrefixed = true)
    (hother : other.isPrefixed = true) : Ahead k (top :: late) (other :: early) where
  count := by
    rw [prefixedCount, prefixedCount, List.countP_cons_of_pos htop, List.countP_cons_of_pos hother]
    exact congrArg Nat.succ h.count
  delayed := by simpa [delays, htop, hother] using h.delayed

theorem Ahead.mono {j : ℕ} (h : Ahead k late early) (hle : j ≤ k) : Ahead j late early :=
  ⟨h.count, by have := h.delayed; omega⟩

/-! ### Without a waiting function or negation -/

theorem isInside_of_isPrefixed (h : token.isPrefixed = true) : token.isInside = true := by
  obtain ⟨item, position⟩ := token
  cases item <;> first | rfl | cases h

theorem isAfter_of_isPrefixed {op : Operator} (hop : op ≠ .pow) (h : token.isPrefixed = true) :
    op.isAfter token = true := by
  obtain ⟨item, position⟩ := token
  cases item with
  | name word => rw [Operator.isAfter_name]; cases op <;> first | rfl | exact absurd rfl hop
  | negation => rw [Operator.isAfter_negation]; cases op <;> first | rfl | exact absurd rfl hop
  | _ => cases h

theorem completed_of_isPrefixed (h : top.isPrefixed = true) (lower : List Token) :
    completed (top :: lower) = ([top], lower) :=
  if_pos h

theorem completed_of_not_isPrefixed (h : top.isPrefixed = false) (lower : List Token) :
    completed (top :: lower) = ([], top :: lower) :=
  if_neg (Bool.eq_false_iff.mp h)

theorem pendingCount_of_outside (h : top.isInside = false) (lower : List Token) :
    pendingCount (top :: lower) = pendingCount lower :=
  List.countP_cons_of_neg (by simp [h])

/-- What is written before a function or a negation, if all that waits above it is, comes sooner
without it. -/
theorem Ahead.written (htop : top.isPrefixed = true) (h : ∀ t ∈ upper, t.isInside = true)
    (lower more : List Token) :
    Ahead (pendingCount upper) (upper ++ top :: lower ++ more) (upper ++ lower ++ more) := by
  rw [← otherCount_of_inside h, List.append_assoc, List.append_assoc, List.cons_append]
  exact .insert htop upper (lower ++ more)

/-- The innermost open parenthesis is above a token or below it. -/
theorem opening_cases {inside below : List Token} {paren : Token}
    (h : upper ++ top :: lower = inside ++ paren :: below) (htop : top.isInside = true)
    (hp : paren.isInside = false) :
    (∃ between, upper = inside ++ paren :: between ∧ below = between ++ top :: lower) ∨
      ∃ between, inside = upper ++ top :: between ∧ lower = between ++ paren :: below := by
  have hne : paren ≠ top := by
    rintro rfl
    rw [hp] at htop
    cases htop
  rcases List.append_eq_append_iff.mp h with ⟨v, hinside, hv⟩ | ⟨v, hupper, hv⟩
  · cases v with
    | nil => exact absurd (List.cons.inj hv).1.symm hne
    | cons t between =>
      obtain ⟨rfl, hlower⟩ := List.cons.inj hv
      exact .inr ⟨between, hinside, hlower⟩
  · cases v with
    | nil => exact absurd (List.cons.inj hv).1 hne
    | cons t between =>
      obtain ⟨rfl, hbelow⟩ := List.cons.inj hv
      exact .inl ⟨between, hupper, hbelow⟩

/-- An operator that is no power lets go of all that waits above a function or negation and of that
token too, or of the same tokens without it. -/
theorem takeWhile_isAfter_cases {op : Operator} (hop : op ≠ .pow) (htop : top.isPrefixed = true)
    (upper lower : List Token) :
    ((∀ t ∈ upper, op.isAfter t = true) ∧
      (upper ++ top :: lower).takeWhile op.isAfter = upper ++ top :: lower.takeWhile op.isAfter ∧
      (upper ++ top :: lower).dropWhile op.isAfter = lower.dropWhile op.isAfter) ∨
    ∀ below, (upper ++ below).takeWhile op.isAfter = upper.takeWhile op.isAfter ∧
      (upper ++ below).dropWhile op.isAfter = upper.dropWhile op.isAfter ++ below := by
  have hafter := isAfter_of_isPrefixed hop htop
  by_cases hall : ∀ t ∈ upper, op.isAfter t = true
  · refine .inl ⟨hall, ?_, ?_⟩
    · rw [List.takeWhile_append_of_pos hall, List.takeWhile_cons_of_pos hafter]
    · rw [List.dropWhile_append_of_pos hall, List.dropWhile_cons_of_pos hafter]
  · have hdrop : (upper.dropWhile op.isAfter).isEmpty = false :=
      List.isEmpty_eq_false_iff.mpr (mt List.dropWhile_eq_nil_iff.mp hall)
    have htake : ¬(upper.takeWhile op.isAfter).length = upper.length := fun hlength => by
      have hself := (List.takeWhile_prefix op.isAfter).eq_of_length hlength
      exact hall (List.takeWhile_eq_self_iff.mp hself)
    refine .inr fun below => ⟨?_, ?_⟩
    · rw [List.takeWhile_append, if_neg htake]
    · rw [List.dropWhile_append, if_neg (by simp [hdrop])]

/-- What the stack `upper ++ lower` does at a step that takes `upper ++ top :: lower` to `stack'` and
writes `out`: it goes to the same stack, or to one that lacks a function or negation again, and what
it writes is ahead either way if it is so from there on. -/
def StepsAhead (upper lower : List Token) (previous : Option Item) (token : Token)
    (out stack' : List Token) : Prop :=
  ∃ out', (Step (upper ++ lower) previous token out' stack' ∧
      ∀ more, Ahead (pendingCount upper) (out ++ more) (out' ++ more)) ∨
    ∃ upper' top' lower', top'.isPrefixed = true ∧ stack' = upper' ++ top' :: lower' ∧
      Step (upper ++ lower) previous token out' (upper' ++ lower') ∧
      ∀ late early, Ahead (pendingCount upper') late early →
        Ahead (pendingCount upper) (out ++ late) (out' ++ early)

/-- A token that is written or waits above all others. -/
theorem stepsAhead_above (added : List Token) (htop : top.isPrefixed = true)
    (h : ∀ stack, Step stack previous token out (added ++ stack)) :
    StepsAhead upper lower previous token out (added ++ (upper ++ top :: lower)) := by
  refine ⟨out, .inr ⟨added ++ upper, top, lower, htop, (List.append_assoc ..).symm, ?_, ?_⟩⟩
  · rw [List.append_assoc]
    exact h (upper ++ lower)
  · intro late early hahead
    refine (hahead.append out).mono ?_
    rw [pendingCount_append]
    omega

theorem takeWhile_isAfter_pow (stack : List Token) : stack.takeWhile Operator.pow.isAfter = [] := by
  cases stack with
  | nil => rfl
  | cons t stack => exact List.takeWhile_cons_of_neg (by simp [Operator.isAfter_pow])

theorem dropWhile_isAfter_pow (stack : List Token) : stack.dropWhile Operator.pow.isAfter = stack := by
  cases stack with
  | nil => rfl
  | cons t stack => exact List.dropWhile_cons_of_neg (by simp [Operator.isAfter_pow])

theorem Step.power {position : ℤ} : Step stack previous ⟨.operator .pow, position⟩ []
    (⟨.operator .pow, position⟩ :: stack) := by
  have hstep : Step stack previous ⟨.operator .pow, position⟩ _ _ := .operator nofun
  rwa [takeWhile_isAfter_pow, dropWhile_isAfter_pow] at hstep

theorem stepsAhead_operator {op : Operator} {position : ℤ} (htop : top.isPrefixed = true)
    (h : op = .sub → negates previous = false) :
    StepsAhead upper lower previous ⟨.operator op, position⟩
      ((upper ++ top :: lower).takeWhile op.isAfter)
      (⟨.operator op, position⟩ :: (upper ++ top :: lower).dropWhile op.isAfter) := by
  have hstep (stack : List Token) : Step stack previous ⟨.operator op, position⟩ _ _ := .operator h
  by_cases hop : op = .pow
  · subst hop
    rw [takeWhile_isAfter_pow, dropWhile_isAfter_pow]
    exact stepsAhead_above [_] htop fun _ => .power
  · rcases takeWhile_isAfter_cases hop htop upper lower with ⟨hall, htake, hdrop⟩ | hsame
    · have hwithout := hstep (upper ++ lower)
      rw [List.dropWhile_append_of_pos hall, List.takeWhile_append_of_pos hall] at hwithout
      rw [htake, hdrop]
      exact ⟨_, .inl ⟨hwithout, Ahead.written htop
        (fun t ht => Operator.isInside_of_isAfter (hall t ht)) _⟩⟩
    · have hwithout := hstep (upper ++ lower)
      rw [(hsame lower).1, (hsame lower).2] at hwithout
      rw [(hsame (top :: lower)).1, (hsame (top :: lower)).2]
      refine ⟨_, .inr ⟨⟨.operator op, position⟩ :: upper.dropWhile op.isAfter, top, lower, htop, rfl,
        hwithout, fun late early hahead => (hahead.append _).mono ?_⟩⟩
      have hinside : ∀ t ∈ upper.takeWhile op.isAfter, t.isInside = true := fun t ht =>
        Operator.isInside_of_isAfter (List.mem_takeWhile_imp ht)
      have hsplit : pendingCount upper =
          pendingCount (upper.takeWhile op.isAfter) + pendingCount (upper.dropWhile op.isAfter) := by
        rw [← pendingCount_append, List.takeWhile_append_dropWhile]
      rw [hsplit, otherCount_of_inside hinside]
      exact Nat.add_le_add_left (List.Sublist.countP_le (List.sublist_cons_self ..)) _

theorem stepsAhead_comma {inside below : List Token} {paren : Token} {position : ℤ}
    (htop : top.isPrefixed = true) (hs : upper ++ top :: lower = inside ++ paren :: below)
    (hi : ∀ t ∈ inside, t.isInside = true) (hp : paren.isInside = false) :
    StepsAhead upper lower previous ⟨.comma, position⟩ inside (paren :: below) := by
  rcases opening_cases hs (isInside_of_isPrefixed htop) hp with
    ⟨between, rfl, rfl⟩ | ⟨between, rfl, rfl⟩
  · refine ⟨inside, .inr ⟨paren :: between, top, lower, htop, rfl, ?_, fun late early hahead => ?_⟩⟩
    · rw [List.append_assoc]
      exact .comma rfl hi hp
    · rw [pendingCount_append, ← otherCount_of_inside hi]
      exact hahead.append inside
  · obtain ⟨hupper, hrest⟩ := List.forall_mem_append.mp hi
    refine ⟨upper ++ between, .inl ⟨?_, Ahead.written htop hupper between⟩⟩
    rw [← List.append_assoc]
    exact .comma rfl
      (List.forall_mem_append.mpr ⟨hupper, (List.forall_mem_cons.mp hrest).2⟩) hp

theorem stepsAhead_closing {inside below : List Token} {paren : Token} {position : ℤ}
    (htop : top.isPrefixed = true) (hs : upper ++ top :: lower = inside ++ paren :: below)
    (hi : ∀ t ∈ inside, t.isInside = true) (hp : paren.isInside = false) :
    StepsAhead upper lower previous ⟨.closing, position⟩ (inside ++ (completed below).1)
      (completed below).2 := by
  rcases opening_cases hs (isInside_of_isPrefixed htop) hp with
    ⟨between, rfl, rfl⟩ | ⟨between, rfl, rfl⟩
  · have hstep : Step (inside ++ paren :: between ++ lower) previous ⟨.closing, position⟩
        (inside ++ (completed (between ++ lower)).1) (completed (between ++ lower)).2 :=
      .closing (by simp) hi hp
    have hpending : pendingCount (inside ++ paren :: between) =
        otherCount inside + pendingCount between := by
      rw [pendingCount_append, otherCount_of_inside hi, pendingCount_of_outside hp]
    rw [StepsAhead, hpending]
    cases between with
    | cons first between =>
      cases hfirst : first.isPrefixed with
      | true =>
        rw [List.cons_append, completed_of_isPrefixed hfirst] at hstep ⊢
        refine ⟨_, .inr ⟨between, top, lower, htop, rfl, hstep, fun late early hahead => ?_⟩⟩
        have hcount : pendingCount (first :: between) = pendingCount between :=
          List.countP_cons_of_neg (by simp [hfirst])
        rw [hcount, List.append_assoc, List.append_assoc]
        refine .append ?_ inside
        simpa [otherCount, hfirst] using hahead.append [first]
      | false =>
        rw [List.cons_append, completed_of_not_isPrefixed hfirst, List.append_nil] at hstep ⊢
        exact ⟨_, .inr ⟨first :: between, top, lower, htop, rfl, hstep,
          fun late early hahead => hahead.append inside⟩⟩
    | nil =>
      have hinsert (more : List Token) :
          Ahead (otherCount inside + 0) (inside ++ [top] ++ more) (inside ++ [] ++ more) := by
        simpa using Ahead.insert htop inside more
      rw [List.nil_append, completed_of_isPrefixed htop]
      cases lower with
      | nil => exact ⟨_, .inl ⟨hstep, hinsert⟩⟩
      | cons next lower =>
        cases hnext : next.isPrefixed with
        | true =>
          -- The next one is completed in its place, and is what is lacking from here on.
          rw [List.nil_append, completed_of_isPrefixed hnext] at hstep
          refine ⟨_, .inr ⟨[], next, lower, hnext, rfl, hstep, fun late early hahead => ?_⟩⟩
          rw [List.append_assoc, List.append_assoc]
          exact (hahead.exchange htop hnext).append inside
        | false =>
          rw [List.nil_append, completed_of_not_isPrefixed hnext] at hstep
          exact ⟨_, .inl ⟨hstep, hinsert⟩⟩
  · obtain ⟨hupper, hrest⟩ := List.forall_mem_append.mp hi
    have hahead := Ahead.written htop hupper (between ++ (completed below).1)
    refine ⟨upper ++ between ++ (completed below).1, .inl ⟨?_, ?_⟩⟩
    · rw [← List.append_assoc]
      exact .closing rfl
        (List.forall_mem_append.mpr ⟨hupper, (List.forall_mem_cons.mp hrest).2⟩) hp
    · simpa using hahead

/-- At every step the stack without a function or negation keeps up. -/
theorem Step.stepsAhead (htop : top.isPrefixed = true)
    (h : Step (upper ++ top :: lower) previous token out stack') :
    StepsAhead upper lower previous token out stack' := by
  generalize hs : upper ++ top :: lower = stack at h
  cases h with
  | number => subst hs; exact stepsAhead_above [] htop fun _ => .number
  | suffix => subst hs; exact stepsAhead_above [] htop fun _ => .suffix
  | constant h => subst hs; exact stepsAhead_above [] htop fun _ => .constant h
  | function h => subst hs; exact stepsAhead_above [_] htop fun _ => .function h
  | negation h => subst hs; exact stepsAhead_above [_] htop fun _ => .negation h
  | opening => subst hs; exact stepsAhead_above [_] htop fun _ => .opening
  | operator h => subst hs; exact stepsAhead_operator htop h
  | comma hstack hi hp => exact stepsAhead_comma htop (hs.trans hstack) hi hp
  | closing hstack hi hp => exact stepsAhead_closing htop (hs.trans hstack) hi hp

/-- A conversion that succeeds does so without a waiting function or negation, and what it writes
then is ahead of what waits above it. -/
theorem exists_ahead (upper : List Token) (htop : top.isPrefixed = true)
    (h : toPostfixFrom (upper ++ top :: lower) previous tokens = .ok late) :
    ∃ early, toPostfixFrom (upper ++ lower) previous tokens = .ok early ∧
      Ahead (pendingCount upper) late early := by
  induction tokens generalizing upper top lower previous late with
  | nil =>
    obtain ⟨hinside, rfl⟩ := toPostfixFrom_nil.mp h
    obtain ⟨hupper, hrest⟩ := List.forall_mem_append.mp hinside
    refine ⟨upper ++ lower, toPostfixFrom_nil.mpr ⟨?_, rfl⟩, ?_⟩
    · exact List.forall_mem_append.mpr ⟨hupper, (List.forall_mem_cons.mp hrest).2⟩
    · rw [← otherCount_of_inside hupper]
      exact .insert htop upper lower
  | cons token tokens ih =>
    obtain ⟨out, stack', late, hstep, hlate, rfl⟩ := exists_step h
    obtain ⟨out', ⟨hwithout, hahead⟩ | ⟨upper', top', lower', htop', rfl, hwithout, hahead⟩⟩ :=
      hstep.stepsAhead htop
    · refine ⟨out' ++ late, ?_, hahead late⟩
      rw [hwithout.toPostfixFrom_cons, hlate]
      rfl
    · obtain ⟨early, hearly, hrest⟩ := ih upper' htop' hlate
      refine ⟨out' ++ early, ?_, hahead late early hrest⟩
      rw [hwithout.toPostfixFrom_cons, hearly]
      rfl

/-! ### A number in parentheses -/

/-- What comes before matters to a minus alone. -/
theorem toPostfixFrom_congr_previous (h : negates previous = negates previous')
    (stack tokens : List Token) :
    toPostfixFrom stack previous tokens = toPostfixFrom stack previous' tokens := by
  cases tokens with
  | nil => rfl
  | cons token tokens => simp only [toPostfixFrom, h]

theorem toPostfixFrom_group {value : Double} {place first last : ℤ} :
    toPostfixFrom stack previous
        (⟨.opening, first⟩ :: ⟨.number value, place⟩ :: ⟨.closing, last⟩ :: after) =
      (toPostfixFrom (completed stack).2 (some .closing) after).map
        (⟨.number value, place⟩ :: (completed stack).1 ++ ·) :=
  have hclosing : Step (⟨.opening, first⟩ :: stack) (some (.number value)) ⟨.closing, last⟩
      ([] ++ (completed stack).1) (completed stack).2 := .closing rfl nofun rfl
  Reads.trans Step.opening.reads (.trans Step.number.reads hclosing.reads) after

/-- A token that ends an operand lets a waiting function or negation go before it. -/
theorem toPostfixFrom_released (htop : top.isPrefixed = true) (hprevious : negates previous = false)
    (h : after.head?.all (·.item.releases) = true) (lower : List Token) :
    toPostfixFrom (top :: lower) previous after =
      (toPostfixFrom lower previous after).map (top :: ·) := by
  have hinside := isInside_of_isPrefixed htop
  have hmap (out : List Token) (result : Except ParseError (List Token)) :
      result.map (top :: out ++ ·) = (result.map (out ++ ·)).map (top :: ·) := by
    cases result <;> rfl
  cases after with
  | nil =>
    rw [toPostfixFrom, toPostfixFrom, List.all_cons, hinside, Bool.true_and]
    split <;> rfl
  | cons token after =>
    obtain ⟨item, position⟩ := token
    cases item with
    | closing | comma =>
      simp only [toPostfixFrom, List.dropWhile_cons_of_pos hinside,
        List.takeWhile_cons_of_pos hinside]
      split
      · rfl
      · exact hmap _ _
    | operator op =>
      have hop : op ≠ .pow := by simpa [Item.releases] using h
      have hafter := isAfter_of_isPrefixed hop htop
      simp only [toPostfixFrom, hprevious, Bool.and_false, Bool.false_eq_true, if_false,
        List.dropWhile_cons_of_pos hafter, List.takeWhile_cons_of_pos hafter]
      exact hmap _ _
    | _ => cases h

/-- A token that goes first is written behind the operand, or waits to be, before the function or
negation that waits there. -/
theorem exists_ahead_of_goesFirst (htop : top.isPrefixed = true) (hprevious : negates previous = false)
    (hfirst : after.head?.any (·.item.goesFirst) = true)
    (h : toPostfixFrom (top :: lower) previous after = .ok late) :
    ∃ early, toPostfixFrom lower previous after = .ok early ∧ Ahead 1 late early := by
  have hwritten {token written : Token} {tokens late : List Token} (hother : written.isPrefixed = false)
      (hstep : ∀ stack, Step stack previous token [written] stack)
      (h : toPostfixFrom (top :: lower) (some token.item) tokens = .ok late) :
      ∃ early, toPostfixFrom lower previous (token :: tokens) = .ok early ∧
        Ahead 1 ([written] ++ late) early := by
    obtain ⟨early, hearly, hahead⟩ := exists_ahead [] htop h
    refine ⟨[written] ++ early, ?_, ?_⟩
    · rw [(hstep lower).toPostfixFrom_cons]
      exact congrArg (Except.map ([written] ++ ·)) hearly
    · simpa [otherCount, hother, pendingCount] using hahead.append [written]
  cases after with
  | nil => cases hfirst
  | cons token after =>
    obtain ⟨out, stack', late, hstep, hlate, rfl⟩ := exists_step h
    cases hstep with
    | number => exact hwritten rfl (fun _ => .number) hlate
    | suffix => exact hwritten rfl (fun _ => .suffix) hlate
    | constant hconstant => exact hwritten rfl (fun _ => .constant hconstant) hlate
    | function hname => simp [Item.goesFirst, hname] at hfirst
    | negation hnegates => rw [hprevious] at hnegates; cases hnegates
    | @operator op position hminus =>
      obtain rfl : op = .pow := by simpa [Item.goesFirst] using hfirst
      rw [dropWhile_isAfter_pow] at hlate
      obtain ⟨early, hearly, hahead⟩ := exists_ahead [⟨.operator .pow, position⟩] htop hlate
      refine ⟨early, ?_, ?_⟩
      · rw [Step.power.toPostfixFrom_cons, map_nil_append]
        exact hearly
      · rw [takeWhile_isAfter_pow]
        exact hahead
    | opening | comma | closing => cases hfirst

/-- Where a token stands before others, a function or negation that goes first makes for fewer
delays. -/
theorem Ahead.delays_le (h : Ahead k late early) (htop : top.isPrefixed = true) (s : List Token) :
    delays (s ++ top :: early) + k ≤ delays (s ++ late) := by
  have hcount : prefixedCount (top :: early) = prefixedCount late := by
    rw [prefixedCount, List.countP_cons_of_pos htop]
    exact h.count.symm
  have hdelays : delays (top :: early) = delays early := by rw [delays, if_pos htop, Nat.zero_add]
  have := h.delayed
  rw [delays_append, delays_append, hcount, hdelays]
  omega

/-- What parentheses around a number do to a conversion that succeeds without them. -/
theorem exists_group {value : Double} {place : ℤ} (first last : ℤ)
    (h : toPostfixFrom stack previous (⟨.number value, place⟩ :: after) = .ok output) :
    ∃ output', toPostfixFrom stack previous
        (⟨.opening, first⟩ :: ⟨.number value, place⟩ :: ⟨.closing, last⟩ :: after) = .ok output' ∧
      ((∀ top ∈ stack.head?, top.isPrefixed = false) → output' = output) ∧
      ∀ top below, stack = top :: below → top.isPrefixed = true → ∃ early late,
        toPostfixFrom below (some .closing) after = .ok early ∧
        output' = ⟨.number value, place⟩ :: top :: early ∧ output = ⟨.number value, place⟩ :: late ∧
        Ahead 0 late early ∧
        (after.head?.all (·.item.releases) = true → late = top :: early) ∧
        (after.head?.any (·.item.goesFirst) = true → Ahead 1 late early) := by
  rw [Step.number.toPostfixFrom_cons] at h
  obtain ⟨late, hlate, rfl⟩ := map_eq_ok h
  have hprevious : negates (some .closing) = negates (some (.number value)) := rfl
  replace hlate := (toPostfixFrom_congr_previous hprevious stack after).trans hlate
  rw [toPostfixFrom_group]
  cases stack with
  | nil => exact ⟨_, congrArg (Except.map _) hlate, fun _ => rfl, nofun⟩
  | cons top below =>
    cases htop : top.isPrefixed with
    | false =>
      rw [completed_of_not_isPrefixed htop]
      refine ⟨_, congrArg (Except.map _) hlate, fun _ => rfl, fun top' below' hstack htop' => ?_⟩
      obtain ⟨rfl, -⟩ := List.cons.inj hstack
      rw [htop] at htop'
      cases htop'
    | true =>
      rw [completed_of_isPrefixed htop]
      obtain ⟨early, hearly, hahead⟩ := exists_ahead [] htop hlate
      refine ⟨_, congrArg (Except.map _) hearly, fun hnone => ?_, fun top' below' hstack _ => ?_⟩
      · rw [hnone top rfl] at htop
        cases htop
      · obtain ⟨rfl, rfl⟩ := List.cons.inj hstack
        refine ⟨early, late, hearly, rfl, rfl, hahead, fun hreleases => ?_, fun hfirst => ?_⟩
        · rw [toPostfixFrom_released htop rfl hreleases] at hlate
          obtain ⟨early', hearly', rfl⟩ := map_eq_ok hlate
          rw [show toPostfixFrom below _ after = .ok early from hearly] at hearly'
          rw [Except.ok.inj hearly']
        · obtain ⟨early', hearly', hahead'⟩ := exists_ahead_of_goesFirst htop rfl hfirst hlate
          rw [show toPostfixFrom below _ after = .ok early from hearly] at hearly'
          exact Except.ok.inj hearly' ▸ hahead'

/-- Parentheses around a number never stand in the way of a postfix form, and they leave it as it is
unless a function or a negation waits for an operand there.  Such a token stands right behind the
number then, as if it had not waited for what follows: the postfix form is the same where what follows
ends the operand, and another one where it goes first. -/
theorem toPostfix_group {before : List Token} {value : Double} {place : ℤ}
    (h : toPostfix (before ++ ⟨.number value, place⟩ :: after) = .ok output)
    (hgroup : itemsOf tokens' =
      itemsOf before ++ [.opening, .number value, .closing] ++ itemsOf after) :
    ∃ output' out stack previous, toPostfix tokens' = .ok output' ∧
      Steps [] none before out stack previous ∧
      ((∀ top ∈ stack.head?, top.isPrefixed = false) → itemsOf output' = itemsOf output) ∧
      ∀ top below, stack = top :: below → top.isPrefixed = true →
        (∃ more, toPostfixFrom below (some .closing) after = .ok more ∧
          itemsOf output' = itemsOf out ++ .number value :: top.item :: itemsOf more) ∧
        (after.head?.all (·.item.releases) = true → itemsOf output' = itemsOf output) ∧
        (after.head?.any (·.item.goesFirst) = true → itemsOf output' ≠ itemsOf output) := by
  obtain ⟨out, stack, previous, more, hsteps, hmore, rfl⟩ := exists_steps h
  obtain ⟨more', hmore', hsame, hother⟩ := exists_group (-1) (-1) hmore
  have hconverted : toPostfix (before ++ ⟨.opening, -1⟩ :: ⟨.number value, place⟩ ::
      ⟨.closing, -1⟩ :: after) = .ok (out ++ more') := by
    rw [toPostfix, hsteps.reads, hmore']
    rfl
  have hitems : itemsOf tokens' = itemsOf (before ++ ⟨.opening, -1⟩ :: ⟨.number value, place⟩ ::
      ⟨.closing, -1⟩ :: after) := by
    rw [hgroup]
    simp [itemsOf]
  have hcongr := toPostfix_congr hitems
  rw [hconverted] at hcongr
  obtain ⟨output', houtput', hsameItems⟩ := map_eq_ok hcongr
  refine ⟨output', out, stack, previous, houtput', hsteps, fun hnone => ?_,
    fun top below hstack htop => ?_⟩
  · rw [hsameItems, hsame hnone]
  · obtain ⟨early, late, hearly, rfl, rfl, hahead, hreleases, hfirst⟩ := hother top below hstack htop
    refine ⟨⟨early, hearly, ?_⟩, fun hnext => ?_, fun hnext heq => ?_⟩
    · rw [hsameItems]
      simp [itemsOf]
    · rw [hsameItems, hreleases hnext]
    · have hdelays := (hfirst hnext).delays_le htop (out ++ [⟨.number value, place⟩])
      have hequal : delays (out ++ ⟨.number value, place⟩ :: top :: early) =
          delays (out ++ ⟨.number value, place⟩ :: late) := delays_of_itemsOf (hsameItems.symm.trans heq)
      rw [List.append_assoc, List.append_assoc, List.singleton_append, List.singleton_append] at hdelays
      omega

/-- In `-3!` the negation waits for the factorial, and in `-(3)!` it does not. -/
theorem toPostfix_group_factorial :
    toPostfix [⟨.operator .sub, 0⟩, ⟨.number 3, 1⟩, ⟨.suffix .factorial, 2⟩] =
      .ok [⟨.number 3, 1⟩, ⟨.suffix .factorial, 2⟩, ⟨.negation, 0⟩] ∧
    ∃ output, toPostfix [⟨.operator .sub, 0⟩, ⟨.opening, 1⟩, ⟨.number 3, 2⟩, ⟨.closing, 3⟩,
        ⟨.suffix .factorial, 4⟩] = .ok output ∧
      itemsOf output = [.number 3, .negation, .suffix .factorial] := by
  have hbare : toPostfix ([⟨.operator .sub, 0⟩] ++ ⟨.number 3, 1⟩ :: [⟨.suffix .factorial, 2⟩]) =
      .ok [⟨.number 3, 1⟩, ⟨.suffix .factorial, 2⟩, ⟨.negation, 0⟩] := rfl
  refine ⟨hbare, ?_⟩
  have hgroup : itemsOf [⟨.operator .sub, 0⟩, ⟨.opening, 1⟩, ⟨.number 3, 2⟩, ⟨.closing, 3⟩,
      ⟨.suffix .factorial, 4⟩] = itemsOf [⟨.operator .sub, 0⟩] ++
        [.opening, .number 3, .closing] ++ itemsOf [⟨.suffix .factorial, 2⟩] := rfl
  obtain ⟨output, out, stack, previous, houtput, hsteps, -, hother⟩ := toPostfix_group hbare hgroup
  cases hsteps with
  | cons hstep hmore =>
    cases hmore
    cases hstep with
    | operator hminus => cases hminus rfl
    | negation =>
      obtain ⟨⟨more, hmore, hitems⟩, -, -⟩ := hother _ _ rfl rfl
      obtain rfl : [⟨.suffix .factorial, 2⟩] = more := Except.ok.inj hmore
      exact ⟨output, houtput, hitems⟩

/-- Parentheses around a number do not always leave the postfix form as it is: `-2^2` negates the
power, and `-(2)^2` is the power of a negation. -/
theorem not_toPostfix_group : ¬∀ (before after tokens' output : List Token) (value : Double)
    (place : ℤ), toPostfix (before ++ ⟨.number value, place⟩ :: after) = .ok output →
    (∀ t ∈ before.getLast?, ∀ word, t.item ≠ .name word) →
    itemsOf tokens' = itemsOf before ++ [.opening, .number value, .closing] ++ itemsOf after →
    ∃ output', toPostfix tokens' = .ok output' ∧ itemsOf output' = itemsOf output := by
  intro h
  have hbare : toPostfix ([⟨.operator .sub, 0⟩] ++ ⟨.number 2, 1⟩ ::
      [⟨.operator .pow, 2⟩, ⟨.number 2, 3⟩]) =
      .ok [⟨.number 2, 1⟩, ⟨.number 2, 3⟩, ⟨.operator .pow, 2⟩, ⟨.negation, 0⟩] := by decide +kernel
  have hgrouped : toPostfix [⟨.operator .sub, 0⟩, ⟨.opening, 1⟩, ⟨.number 2, 2⟩, ⟨.closing, 3⟩,
      ⟨.operator .pow, 4⟩, ⟨.number 2, 5⟩] =
      .ok [⟨.number 2, 2⟩, ⟨.negation, 0⟩, ⟨.number 2, 5⟩, ⟨.operator .pow, 4⟩] := by
    decide +kernel
  obtain ⟨output', houtput', hitems⟩ := h _ _ [⟨.operator .sub, 0⟩, ⟨.opening, 1⟩, ⟨.number 2, 2⟩,
    ⟨.closing, 3⟩, ⟨.operator .pow, 4⟩, ⟨.number 2, 5⟩] _ _ _ hbare (by simp) rfl
  obtain rfl := Except.ok.inj (hgrouped.symm.trans houtput')
  simp [itemsOf] at hitems

end Parentheses

end Reckoner
