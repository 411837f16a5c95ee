import Reckoner.Proofs.Expression.Conversion

/-! The grammar of expressions and the order of their postfix form.  `Derivation` is the grammar,
with the post-order of each derivation beside its tokens.  The conversion writes that order, for
every derivation: while the tokens of a part are read, the end of its post-order waits on the stack,
and the operators that may follow the part let all of it go. -/

namespace Reckoner

/-- The parts of an expression, from those that bind least to those that bind most. -/
inductive Category
  | sum
  | product
  /-- A power, or a negation or a function before a bare operand. -/
  | signed
  | power
  /-- A primary part with factorials and percent signs after it. -/
  | suffixed
  | primary
  /-- Sums in parentheses with commas between them. -/
  | group
  /-- The inside of a group. -/
  | arguments
  deriving DecidableEq, Repr

/-- The item that a list of tokens starts with. -/
def firstItem? (s : List Token) : Option Item := s.head?.map Token.item

/-- `Derivation category s p`: the tokens `s` derive from the category, and `p` is the post-order of
the derivation.  There operands stand in their order, each operator follows its operands, a prefix
minus is a negation, a constant is its number, and parentheses and commas are left out. -/
inductive Derivation : Category → (s p : List Token) → Prop
  | product {s p} : Derivation .product s p → Derivation .sum s p
  | sum {s t p q} {op : Operator} {position : Int} (h : op = .add ∨ op = .sub) :
      Derivation .sum s p → Derivation .product t q →
      Derivation .sum (s ++ ⟨.operator op, position⟩ :: t) (p ++ q ++ [⟨.operator op, position⟩])
  | signed {s p} : Derivation .signed s p → Derivation .product s p
  | multiple {s t p q} {op : Operator} {position : Int} (h : op = .mul ∨ op = .div) :
      Derivation .product s p → Derivation .signed t q →
      Derivation .product (s ++ ⟨.operator op, position⟩ :: t)
        (p ++ q ++ [⟨.operator op, position⟩])
  | power {s p} : Derivation .power s p → Derivation .signed s p
  | negation {s p} {position : Int} (h : firstItem? s ≠ some .opening) :
      Derivation .signed s p →
      Derivation .signed (⟨.operator .sub, position⟩ :: s) (p ++ [⟨.negation, position⟩])
  | function {s p} {word : Text} {position : Int} (hw : constant? word = none)
      (ho : firstItem? s ≠ some .opening) (hm : firstItem? s ≠ some (.operator .sub)) :
      Derivation .signed s p →
      Derivation .signed (⟨.name word, position⟩ :: s) (p ++ [⟨.name word, position⟩])
  | suffixed {s p} : Derivation .suffixed s p → Derivation .power s p
  | raised {s t p q} {position : Int} : Derivation .suffixed s p → Derivation .signed t q →
      Derivation .power (s ++ ⟨.operator .pow, position⟩ :: t)
        (p ++ q ++ [⟨.operator .pow, position⟩])
  | primary {s p} : Derivation .primary s p → Derivation .suffixed s p
  | suffix {s p} {mark : Suffix} {position : Int} : Derivation .suffixed s p →
      Derivation .suffixed (s ++ [⟨.suffix mark, position⟩]) (p ++ [⟨.suffix mark, position⟩])
  | number {value : Double} {position : Int} :
      Derivation .primary [⟨.number value, position⟩] [⟨.number value, position⟩]
  | constant {word : Text} {value : Double} {position : Int} (h : constant? word = some value) :
      Derivation .primary [⟨.name word, position⟩] [⟨.number value, position⟩]
  | group {s p} : Derivation .group s p → Derivation .primary s p
  | call {s p} {word : Text} {position : Int} (h : constant? word = none) : Derivation .group s p →
      Derivation .primary (⟨.name word, position⟩ :: s) (p ++ [⟨.name word, position⟩])
  | negatedGroup {s p} {position : Int} : Derivation .group s p →
      Derivation .primary (⟨.operator .sub, position⟩ :: s) (p ++ [⟨.negation, position⟩])
  | parentheses {s p} {first last : Int} : Derivation .arguments s p →
      Derivation .group (⟨.opening, first⟩ :: s ++ [⟨.closing, last⟩]) p
  | argument {s p} : Derivation .sum s p → Derivation .arguments s p
  | comma {s t p q} {position : Int} : Derivation .arguments s p → Derivation .sum t q →
      Derivation .arguments (s ++ ⟨.comma, position⟩ :: t) (p ++ q)

/-! ### What waits while a part is read -/

/-- Reading the tokens `s` leaves the end of `p` waiting above `stack`: tokens that go before `op`.
The rest of `p` is written.  The last item read ends an operand, so that a minus after it
subtracts. -/
def Leaves (op : Operator) (stack : List Token) (previous : Option Item) (s p : List Token) :
    Prop :=
  ∃ out pending last, Reads stack previous s out (pending ++ stack) (some last) ∧
    out ++ pending = p ∧ last.awaitsOperand = false ∧ ∀ t ∈ pending, op.isAfter t = true

/-- Whether the token on top of the stack stays when `op` comes. -/
def Keeps (op : Operator) (stack : List Token) : Prop := ∀ t ∈ stack.head?, op.isAfter t = false

/-- Where a part that binds more tightly than a product may start: a minus negates there, and no
function or negation waits that a parenthesis would complete. -/
structure Admits (stack : List Token) (previous : Option Item) (s : List Token) : Prop where
  negates : firstItem? s = some (.operator .sub) → negates previous = true
  completes : firstItem? s = some .opening → (completed stack).1 = []

theorem Admits.of_ne {stack s : List Token} {previous : Option Item}
    (ho : firstItem? s ≠ some .opening) (hm : firstItem? s ≠ some (.operator .sub)) :
    Admits stack previous s :=
  ⟨fun h => absurd h hm, fun h => absurd h ho⟩

section Leaving

variable {stack s t p q : List Token} {previous : Option Item} {op low high : Operator}
  {position : Int}

theorem Leaves.mono (h : Leaves low stack previous s p)
    (hop : ∀ t, low.isAfter t = true → op.isAfter t = true) : Leaves op stack previous s p := by
  obtain ⟨out, pending, last, hr, hp, hl, hall⟩ := h
  exact ⟨out, pending, last, hr, hp, hl, fun t ht => hop t (hall t ht)⟩

theorem Leaves.of_reads {last : Item} (h : Reads stack previous s p stack (some last))
    (hl : last.awaitsOperand = false) : Leaves op stack previous s p :=
  ⟨p, [], last, h, List.append_nil p, hl, fun _ ht => by simp at ht⟩

theorem takeWhile_isAfter {pending : List Token} (hall : ∀ t ∈ pending, op.isAfter t = true)
    (hk : Keeps op stack) :
    (pending ++ stack).takeWhile op.isAfter = pending ∧
      (pending ++ stack).dropWhile op.isAfter = stack := by
  rw [List.takeWhile_append_of_pos hall, List.dropWhile_append_of_pos hall]
  cases stack with
  | nil => simp
  | cons top below =>
    have htop : ¬op.isAfter top = true := by simp [hk top (by simp)]
    rw [List.takeWhile_cons_of_neg htop, List.dropWhile_cons_of_neg htop]
    simp

/-- An operator after a part completes it. -/
theorem Leaves.operator (h : Leaves op stack previous s p) (hk : Keeps op stack) :
    Reads stack previous (s ++ [⟨.operator op, position⟩]) p (⟨.operator op, position⟩ :: stack)
      (some (.operator op)) := by
  obtain ⟨out, pending, last, hr, rfl, hl, hall⟩ := h
  have hstep : Step (pending ++ stack) (some last) ⟨.operator op, position⟩ _ _ :=
    .operator fun _ => by simpa [negates] using hl
  rw [(takeWhile_isAfter hall hk).1, (takeWhile_isAfter hall hk).2] at hstep
  exact hr.trans hstep.reads

theorem Leaves.above {token : Token} {previous1 : Option Item} {s1 out : List Token}
    (hr : Reads stack previous s1 out (token :: stack) previous1)
    (h : Leaves low (token :: stack) previous1 s p) (htoken : low.isAfter token = true) :
    Leaves low stack previous (s1 ++ s) (out ++ p ++ [token]) := by
  obtain ⟨out1, pending, last, hr1, rfl, hl, hall⟩ := h
  refine ⟨out ++ out1, pending ++ [token], last, ?_, ?_, hl, ?_⟩
  · have := hr.trans hr1
    simpa using this
  · simp
  · intro t ht
    rcases List.mem_append.mp ht with ht | ht
    · exact hall t ht
    · rw [List.mem_singleton.mp ht]
      exact htoken

theorem Leaves.binary (hl : Leaves op stack previous s p) (hk : Keeps op stack)
    (hr : Leaves low (⟨.operator op, position⟩ :: stack) (some (.operator op)) t q)
    (hop : low.isAfter ⟨.operator op, position⟩ = true) :
    Leaves low stack previous (s ++ ⟨.operator op, position⟩ :: t)
      (p ++ q ++ [⟨.operator op, position⟩]) := by
  have := Leaves.above (hl.operator hk) hr hop
  simpa using this

/-- What waits above an open parenthesis is written when the parenthesis is closed. -/
theorem Leaves.closing {paren : Token} (h : Leaves op (paren :: stack) previous s p)
    (hp : paren.isInside = false) :
    Reads (paren :: stack) previous (s ++ [⟨.closing, position⟩]) (p ++ (completed stack).1)
      (completed stack).2 (some .closing) := by
  obtain ⟨out, pending, last, hr, rfl, -, hall⟩ := h
  have hstep : Step (pending ++ paren :: stack) (some last) ⟨.closing, position⟩ _ _ :=
    .closing rfl (fun t ht => Operator.isInside_of_isAfter (hall t ht)) hp
  have := hr.trans hstep.reads
  rwa [← List.append_assoc] at this

theorem Leaves.comma {paren : Token} (h : Leaves op (paren :: stack) previous s p)
    (hp : paren.isInside = false) :
    Reads (paren :: stack) previous (s ++ [⟨.comma, position⟩]) p (paren :: stack)
      (some .comma) := by
  obtain ⟨out, pending, last, hr, rfl, -, hall⟩ := h
  have hstep : Step (pending ++ paren :: stack) (some last) ⟨.comma, position⟩ _ _ :=
    .comma rfl (fun t ht => Operator.isInside_of_isAfter (hall t ht)) hp
  exact hr.trans hstep.reads

end Leaving

section Starting

variable {stack s t p : List Token} {previous : Option Item}

theorem Keeps.mul (h : Keeps .add stack) : Keeps .mul stack := by
  intro top htop
  by_contra hmul
  have := Operator.add_isAfter_of_mul_isAfter (by simpa using hmul)
  simp [h top htop] at this

theorem Keeps.completed (h : Keeps .mul stack) : (completed stack).1 = [] := by
  cases stack with
  | nil => rfl
  | cons top below =>
    have htop : Operator.mul.isAfter top = false := h top (by simp)
    obtain ⟨item, position⟩ := top
    cases item with
    | name word => simp [Operator.isAfter_name, Operator.precedence] at htop
    | negation => simp [Operator.isAfter_negation, Operator.precedence] at htop
    | _ => rfl

theorem Keeps.of_opening {op : Operator} {paren : Token} {below : List Token}
    (h : paren.isInside = false) : Keeps op (paren :: below) := by
  intro top htop
  obtain rfl : paren = top := by simpa using htop
  by_contra hop
  have := Operator.isInside_of_isAfter (by simpa using hop)
  simp [h] at this

theorem completed_eq (h : (completed stack).1 = []) : completed stack = ([], stack) := by
  cases stack with
  | nil => rfl
  | cons top below =>
    cases hp : top.item.isPrefixed with
    | true => simp [completed, hp] at h
    | false => simp [completed, hp]

theorem firstItem?_append {item : Item} (h : firstItem? s = some item) (t : List Token) :
    firstItem? (s ++ t) = some item := by
  cases s with
  | nil => cases h
  | cons token s => exact h

theorem Admits.left (h : Admits stack previous (s ++ t)) : Admits stack previous s :=
  ⟨fun hs => h.negates (firstItem?_append hs t), fun hs => h.completes (firstItem?_append hs t)⟩

theorem Admits.after_operator {op : Operator} {position : Int} :
    Admits (⟨.operator op, position⟩ :: stack) (some (.operator op)) s :=
  ⟨fun _ => rfl, fun _ => rfl⟩

theorem Derivation.firstItem?_group (h : Derivation .group s p) :
    firstItem? s = some .opening := by
  cases h
  rfl

end Starting

/-- What the conversion does while it reads the tokens `s` of a part with the post-order `p`.  Parts
that bind less tightly than the operator below them start only within parentheses. -/
def ReadIn : Category → (s p : List Token) → Prop
  | .sum, s, p => ∀ stack previous, negates previous = true → Keeps .add stack →
      Leaves .add stack previous s p
  | .product, s, p => ∀ stack previous, negates previous = true → Keeps .mul stack →
      Leaves .mul stack previous s p
  | .signed, s, p | .power, s, p => ∀ stack previous, Admits stack previous s →
      Leaves .mul stack previous s p
  | .suffixed, s, p | .primary, s, p => ∀ stack previous, Admits stack previous s →
      ∃ last, Reads stack previous s p stack (some last) ∧ last.awaitsOperand = false
  | .group, s, p => ∀ stack previous,
      Reads stack previous s (p ++ (completed stack).1) (completed stack).2 (some .closing)
  | .arguments, s, p => ∀ paren below previous, paren.isInside = false →
      negates previous = true → Leaves .add (paren :: below) previous s p

/-- Every derivation is read as its category asks. -/
theorem Derivation.readIn {category : Category} {s p : List Token}
    (h : Derivation category s p) : ReadIn category s p := by
  induction h with
  | product _ ih =>
    intro stack previous hn hk
    exact (ih stack previous hn hk.mul).mono fun _ => Operator.add_isAfter_of_mul_isAfter
  | @sum s t p q op position hop _ _ ihs iht =>
    intro stack previous hn hk
    have hsame : ∀ t, op.isAfter t = Operator.add.isAfter t := fun t => by
      rw [Operator.isAfter_of_additive hop, Operator.isAfter_of_additive (.inl rfl)]
    have left : Leaves op stack previous s p :=
      (ihs stack previous hn hk).mono fun t ht => (hsame t).trans ht
    have keeps : Keeps .mul (⟨.operator op, position⟩ :: stack) := by
      intro top htop
      obtain rfl : ⟨.operator op, position⟩ = top := by simpa using htop
      rw [Operator.isAfter_operator]
      rcases hop with rfl | rfl <;> rfl
    have right := iht (⟨.operator op, position⟩ :: stack) (some (.operator op)) rfl keeps
    refine left.binary (fun t ht => (hsame t).trans (hk t ht))
      (right.mono fun _ => Operator.add_isAfter_of_mul_isAfter) ?_
    exact Operator.isAfter_of_additive (.inl rfl) _
  | signed _ ih =>
    intro stack previous hn hk
    exact ih stack previous ⟨fun _ => hn, fun _ => hk.completed⟩
  | @multiple s t p q op position hop _ _ ihs iht =>
    intro stack previous hn hk
    have left : Leaves op stack previous s p :=
      (ihs stack previous hn hk).mono fun t ht =>
        (Operator.isAfter_of_multiplicative hop t).trans ht
    have right := iht (⟨.operator op, position⟩ :: stack) (some (.operator op)) .after_operator
    refine left.binary
      (fun t ht => (Operator.isAfter_of_multiplicative hop t).trans (hk t ht)) right ?_
    rw [Operator.isAfter_operator]
    rcases hop with rfl | rfl <;> rfl
  | power _ ih => exact ih
  | @negation s p position ho _ ih =>
    intro stack previous ha
    have hstep : Step stack previous ⟨.operator .sub, position⟩ _ _ :=
      .negation (ha.negates rfl)
    exact Leaves.above hstep.reads (ih _ _ ⟨fun _ => rfl, fun h => absurd h ho⟩)
      (Operator.isAfter_negation _ _)
  | @function s p word position hw ho hm _ ih =>
    intro stack previous _
    have hstep : Step stack previous ⟨.name word, position⟩ _ _ := .function hw
    exact Leaves.above hstep.reads (ih _ _ (.of_ne ho hm)) (Operator.isAfter_name _ _ _)
  | suffixed _ ih =>
    intro stack previous ha
    obtain ⟨last, hr, hl⟩ := ih stack previous ha
    exact .of_reads hr hl
  | @raised s t p q position _ _ ihs iht =>
    intro stack previous ha
    obtain ⟨last, hr, hl⟩ := ihs stack previous ha.left
    refine (Leaves.of_reads hr hl).binary (fun t _ => Operator.isAfter_pow t)
      (iht _ _ .after_operator) ?_
    rw [Operator.isAfter_operator]
    rfl
  | primary _ ih => exact ih
  | suffix _ ih =>
    intro stack previous ha
    obtain ⟨last, hr, -⟩ := ih stack previous ha.left
    exact ⟨_, hr.trans Step.suffix.reads, rfl⟩
  | number => exact fun stack previous _ => ⟨_, Step.number.reads, rfl⟩
  | constant h => exact fun stack previous _ => ⟨_, (Step.constant h).reads, rfl⟩
  | group h ih =>
    intro stack previous ha
    have hc := completed_eq (ha.completes h.firstItem?_group)
    have := ih stack previous
    rw [hc, List.append_nil] at this
    exact ⟨_, this, rfl⟩
  | @call s p word position h _ ih =>
    intro stack previous _
    have hstep : Step stack previous ⟨.name word, position⟩ _ _ := .function h
    exact ⟨_, hstep.reads.trans (ih (⟨.name word, position⟩ :: stack) _), rfl⟩
  | @negatedGroup s p position _ ih =>
    intro stack previous ha
    have hstep : Step stack previous ⟨.operator .sub, position⟩ _ _ :=
      .negation (ha.negates rfl)
    exact ⟨_, hstep.reads.trans (ih (⟨.negation, position⟩ :: stack) _), rfl⟩
  | @parentheses s p first last _ ih =>
    intro stack previous
    have hstep : Step stack previous ⟨.opening, first⟩ _ _ := .opening
    exact hstep.reads.trans ((ih ⟨.opening, first⟩ stack _ rfl rfl).closing rfl)
  | argument _ ih =>
    intro paren below previous hp hn
    exact ih _ previous hn (.of_opening hp)
  | @comma s t p q position _ _ ihs iht =>
    intro paren below previous hp hn
    have left : Reads (paren :: below) previous (s ++ [⟨.comma, position⟩]) p (paren :: below)
        (some .comma) := (ihs paren below previous hp hn).comma hp
    obtain ⟨out, pending, last, hr, rfl, hl, hall⟩ := iht _ (some .comma) rfl (.of_opening hp)
    refine ⟨p ++ out, pending, last, ?_, List.append_assoc .., hl, hall⟩
    simpa using left.trans hr

/-- The postfix form of an expression is the post-order of its derivation. -/
theorem toPostfix_of_derivation {tokens output : List Token}
    (h : Derivation .sum tokens output) : toPostfix tokens = .ok output := by
  obtain ⟨out, pending, last, hr, rfl, -, hall⟩ := h.readIn [] none rfl (by simp [Keeps])
  have hend : toPostfixFrom (pending ++ []) (some last) [] = .ok pending :=
    toPostfixFrom_nil.mpr ⟨fun t ht => Operator.isInside_of_isAfter (hall t (by simpa using ht)),
      (List.append_nil pending).symm⟩
  have := hr []
  rw [hend, List.append_nil] at this
  exact this

/-- The expression `-2^3-sin(1,pi)!`: the minus in front negates the power, and the arguments stand
before the function. -/
theorem toPostfix_power_call :
    Derivation .sum
      [⟨.operator .sub, 0⟩, ⟨.number 2, 1⟩, ⟨.operator .pow, 2⟩, ⟨.number 3, 3⟩,
        ⟨.operator .sub, 4⟩, ⟨.name "sin", 5⟩, ⟨.opening, 8⟩, ⟨.number 1, 9⟩, ⟨.comma, 10⟩,
        ⟨.name "pi", 11⟩, ⟨.closing, 13⟩, ⟨.suffix .factorial, 14⟩]
      [⟨.number 2, 1⟩, ⟨.number 3, 3⟩, ⟨.operator .pow, 2⟩, ⟨.negation, 0⟩, ⟨.number 1, 9⟩,
        ⟨.number .pi, 11⟩, ⟨.name "sin", 5⟩, ⟨.suffix .factorial, 14⟩, ⟨.operator .sub, 4⟩] ∧
    toPostfix
      [⟨.operator .sub, 0⟩, ⟨.number 2, 1⟩, ⟨.operator .pow, 2⟩, ⟨.number 3, 3⟩,
        ⟨.operator .sub, 4⟩, ⟨.name "sin", 5⟩, ⟨.opening, 8⟩, ⟨.number 1, 9⟩, ⟨.comma, 10⟩,
        ⟨.name "pi", 11⟩, ⟨.closing, 13⟩, ⟨.suffix .factorial, 14⟩] =
      .ok [⟨.number 2, 1⟩, ⟨.number 3, 3⟩, ⟨.operator .pow, 2⟩, ⟨.negation, 0⟩, ⟨.number 1, 9⟩,
        ⟨.number .pi, 11⟩, ⟨.name "sin", 5⟩, ⟨.suffix .factorial, 14⟩, ⟨.operator .sub, 4⟩] := by
  have sum_of_primary : ∀ {s p}, Derivation .primary s p → Derivation .sum s p := fun h =>
    .product (.signed (.power (.suffixed (.primary h))))
  have power := Derivation.power (@Derivation.raised _ _ _ _ 2
    (.primary (@Derivation.number 2 1)) (.power (.suffixed (.primary (@Derivation.number 3 3)))))
  have negated := Derivation.product (.signed (@Derivation.negation _ _ 0 (by decide) power))
  have arguments := @Derivation.comma _ _ _ _ 10
    (.argument (sum_of_primary (@Derivation.number 1 9)))
    (sum_of_primary (@Derivation.constant "pi" .pi 11 (by decide)))
  have call := @Derivation.call _ _ "sin" 5 (by decide) (@Derivation.parentheses _ _ 8 13 arguments)
  have factorial := Derivation.signed (.power (.suffixed
    (@Derivation.suffix _ _ .factorial 14 (.primary call))))
  have h := @Derivation.sum _ _ _ _ .sub 4 (.inr rfl) negated factorial
  exact ⟨h, toPostfix_of_derivation h⟩

end Reckoner
