import Mathlib.Data.List.Chain
import Reckoner.Proofs.Expression.Accepted
import Reckoner.Proofs.Expression.Grammar

/-! Which of the texts that have a value are expressions as one writes them.  The machine counts
operands: what it accepts has one number more than binary operators.  Where no operand directly
follows another, this count makes operands and operators take turns, and with balanced parentheses
the tokens are then derived from the grammar.  Nothing else keeps two operands apart, so `(2)(3)+`
has a value too. -/

namespace Reckoner

/-! ### The grammar -/

/-- `WellFormed category s`: the tokens `s` are written as the category is.  Each binary operator
stands between two operands and each function before its operand. -/
inductive WellFormed : Category → List Token → Prop
  | product {s} : WellFormed .product s → WellFormed .sum s
  | sum {s t} {op : Operator} {position : Int} (h : op = .add ∨ op = .sub) :
      WellFormed .sum s → WellFormed .product t →
      WellFormed .sum (s ++ ⟨.operator op, position⟩ :: t)
  | signed {s} : WellFormed .signed s → WellFormed .product s
  | multiple {s t} {op : Operator} {position : Int} (h : op = .mul ∨ op = .div) :
      WellFormed .product s → WellFormed .signed t →
      WellFormed .product (s ++ ⟨.operator op, position⟩ :: t)
  | power {s} : WellFormed .power s → WellFormed .signed s
  | negation {s} {position : Int} : WellFormed .signed s →
      WellFormed .signed (⟨.operator .sub, position⟩ :: s)
  | function {s} {word : Text} {position : Int} (h : constant? word = none) :
      WellFormed .signed s → WellFormed .signed (⟨.name word, position⟩ :: s)
  | suffixed {s} : WellFormed .suffixed s → WellFormed .power s
  | raised {s t} {position : Int} : WellFormed .suffixed s → WellFormed .signed t →
      WellFormed .power (s ++ ⟨.operator .pow, position⟩ :: t)
  | primary {s} : WellFormed .primary s → WellFormed .suffixed s
  | suffix {s} {mark : Suffix} {position : Int} : WellFormed .suffixed s →
      WellFormed .suffixed (s ++ [⟨.suffix mark, position⟩])
  | number {value : Double} {position : Int} : WellFormed .primary [⟨.number value, position⟩]
  | constant {word : Text} {value : Double} {position : Int} (h : constant? word = some value) :
      WellFormed .primary [⟨.name word, position⟩]
  | group {s} : WellFormed .group s → WellFormed .primary s
  | call {s} {word : Text} {position : Int} (h : constant? word = none) : WellFormed .group s →
      WellFormed .primary (⟨.name word, position⟩ :: s)
  | parentheses {s} {first last : Int} : WellFormed .sum s →
      WellFormed .group (⟨.opening, first⟩ :: s ++ [⟨.closing, last⟩])

namespace WellFormed

variable {s t before : List Token}

/-- What stands before a product within a sum also stands before a sum there, and so for the parts
of a product. -/
theorem sum_of_product (h : ∀ t, WellFormed .product t → WellFormed .sum (before ++ t))
    (ht : WellFormed .sum t) : WellFormed .sum (before ++ t) := by
  generalize hc : Category.sum = category at ht
  induction ht with
  | product ht => exact h _ ht
  | sum hop hs ht ihs iht =>
    rw [← List.append_assoc]
    exact .sum hop (ihs hc) ht
  | _ => cases hc

theorem product_of_signed (h : ∀ t, WellFormed .signed t → WellFormed .product (before ++ t))
    (ht : WellFormed .product t) : WellFormed .product (before ++ t) := by
  generalize hc : Category.product = category at ht
  induction ht with
  | signed ht => exact h _ ht
  | multiple hop hs ht ihs iht =>
    rw [← List.append_assoc]
    exact .multiple hop (ihs hc) ht
  | _ => cases hc

theorem sum_of_signed (before : List Token)
    (h : ∀ t, WellFormed .signed t → WellFormed .product (before ++ t)) (ht : WellFormed .sum t) :
    WellFormed .sum (before ++ t) :=
  sum_of_product (fun _ ht => .product (product_of_signed h ht)) ht

/-- An operator between an operand and a sum, however tightly it binds. -/
theorem operator {op : Operator} {position : Int} (hs : WellFormed .suffixed s)
    (ht : WellFormed .sum t) : WellFormed .sum (s ++ ⟨.operator op, position⟩ :: t) := by
  have hsigned : WellFormed .signed s := .power (.suffixed hs)
  rw [List.append_cons]
  cases op with
  | add | sub =>
    refine sum_of_product (fun u hu => ?_) ht
    rw [← List.append_cons]
    exact .sum (by simp) (.product (.signed hsigned)) hu
  | mul | div =>
    refine sum_of_signed _ (fun u hu => ?_) ht
    rw [← List.append_cons]
    exact .multiple (by simp) (.signed hsigned) hu
  | pow =>
    refine sum_of_signed _ (fun u hu => ?_) ht
    rw [← List.append_cons]
    exact .signed (.power (.raised hs hu))

end WellFormed

/-! ### Turns -/

/-- Whether an operand ends with the item. -/
def Item.endsOperand : Item → Bool
  | number _ | suffix _ | closing => true
  | name word => (constant? word).isSome
  | _ => false

/-- Whether the item can only start an operand. -/
def Item.startsOperand : Item → Bool
  | number _ | name _ | opening => true
  | _ => false

/-- Whether the item takes its turn where an operand has been read or, if not `having`, where one is
awaited. -/
def Item.takesTurn (having : Bool) : Item → Bool
  | number _ | name _ | opening => !having
  | operator op => having || op == .sub
  | suffix _ | closing => having
  | comma | negation => false

/-- Whether all tokens take their turns and an operand is the last to do so. -/
def alternates (having : Bool) : List Token → Bool
  | [] => having
  | token :: tokens =>
    token.item.takesTurn having && alternates token.item.endsOperand tokens

/-- No comma is among the tokens, and no operand stands directly behind another. -/
structure Separate (tokens : List Token) : Prop where
  comma : ∀ t ∈ tokens, t.item ≠ .comma
  chain : tokens.IsChain fun a b => a.item.endsOperand = true → b.item.startsOperand = false

/-! ### From turns to the grammar -/

/-- After the tokens `before`, those of `tokens` go on with a sum up to the parenthesis that closes
it, or up to the end. -/
def Continues (depth : Nat) (before tokens : List Token) : Prop :=
  ∃ s rest, tokens = s ++ rest ∧ WellFormed .sum (before ++ s) ∧ alternates true rest = true ∧
    balancedFrom depth rest = true ∧ ∀ t ∈ rest.head?, t.item = .closing

section Continuing

variable {depth : Nat} {before tokens : List Token} {token : Token}

theorem Continues.cons (h : Continues depth (before ++ [token]) tokens) :
    Continues depth before (token :: tokens) := by
  obtain ⟨s, rest, rfl, hs, hr⟩ := h
  exact ⟨token :: s, rest, rfl, by rwa [List.append_cons], hr⟩

theorem Continues.after (h : Continues depth [] tokens)
    (hb : ∀ s, WellFormed .sum s → WellFormed .sum (before ++ s)) :
    Continues depth before tokens := by
  obtain ⟨s, rest, rfl, hs, hr⟩ := h
  exact ⟨s, rest, rfl, hb s hs, hr⟩

/-- Balanced tokens, fewer than `n`, that take their turns go on as they should: with a sum where an
operand is awaited, and with the rest of one behind an operand. -/
def ContinueBelow (n : Nat) : Prop :=
  ∀ depth tokens, tokens.length < n → balancedFrom depth tokens = true →
    (alternates false tokens = true → Continues depth [] tokens) ∧
    (alternates true tokens = true → ∀ s, WellFormed .suffixed s → Continues depth s tokens)

/-- Behind an operand come its suffixes, an operator before a sum, or the end. -/
theorem continues_behind (ih : ContinueBelow tokens.length)
    (hd : balancedFrom depth tokens = true) (ha : alternates true tokens = true)
    (hb : WellFormed .suffixed before) : Continues depth before tokens := by
  have hsum : WellFormed .sum (before ++ []) := by
    rw [List.append_nil]
    exact .product (.signed (.power (.suffixed hb)))
  match tokens with
  | [] => exact ⟨[], [], rfl, hsum, ha, hd, by simp⟩
  | ⟨item, position⟩ :: rest =>
    cases item with
    | suffix mark =>
      have hr : alternates true rest = true := by
        simpa [alternates, Item.takesTurn, Item.endsOperand] using ha
      exact ((ih depth rest (Nat.lt_succ_self _) hd).2 hr _ (.suffix hb)).cons
    | closing => exact ⟨[], ⟨.closing, position⟩ :: rest, rfl, hsum, ha, hd, by simp⟩
    | operator op =>
      have hr : alternates false rest = true := by
        simpa [alternates, Item.takesTurn, Item.endsOperand] using ha
      refine (((ih depth rest (Nat.lt_succ_self _) hd).1 hr).after fun s hs => ?_).cons
      rw [← List.append_cons]
      exact hb.operator hs
    | _ => simp [alternates, Item.takesTurn] at ha

theorem Continues.parentheses {position : Int} (h : Continues (depth + 1) [] tokens)
    (ih : ContinueBelow (tokens.length + 1)) :
    Continues depth [] (⟨.opening, position⟩ :: tokens) := by
  obtain ⟨s, rest, rfl, hs, ha, hd, hclose⟩ := h
  match rest with
  | [] => simp [balancedFrom] at hd
  | ⟨_, last⟩ :: rest =>
    obtain rfl := hclose _ rfl
    have hp : WellFormed .suffixed (⟨.opening, position⟩ :: s ++ [⟨.closing, last⟩]) :=
      .primary (.group (.parentheses hs))
    have hr : alternates true rest = true := by
      simpa [alternates, Item.takesTurn, Item.endsOperand] using ha
    obtain ⟨t, rest, rfl, ht, hrest⟩ :=
      (ih depth rest (by simp; omega) (by simpa [balancedFrom] using hd)).2 hr _ hp
    exact ⟨⟨.opening, position⟩ :: s ++ ⟨.closing, last⟩ :: t, rest, by simp, by simpa using ht,
      hrest⟩

theorem continues_awaited (ih : ContinueBelow tokens.length)
    (hd : balancedFrom depth tokens = true) (ha : alternates false tokens = true) :
    Continues depth [] tokens := by
  match tokens with
  | [] => simp [alternates] at ha
  | ⟨item, position⟩ :: rest =>
    have hlt : rest.length < (⟨item, position⟩ :: rest : List Token).length := Nat.lt_succ_self _
    cases item with
    | number value =>
      have hr : alternates true rest = true := by
        simpa [alternates, Item.takesTurn, Item.endsOperand] using ha
      exact ((ih depth rest hlt hd).2 hr _ (.primary .number)).cons
    | name word =>
      cases hw : constant? word with
      | some value =>
        have hr : alternates true rest = true := by
          simpa [alternates, Item.takesTurn, Item.endsOperand, hw] using ha
        exact ((ih depth rest hlt hd).2 hr _ (.primary (.constant hw))).cons
      | none =>
        have hr : alternates false rest = true := by
          simpa [alternates, Item.takesTurn, Item.endsOperand, hw] using ha
        refine (((ih depth rest hlt hd).1 hr).after fun s hs => ?_).cons
        exact WellFormed.sum_of_signed [_] (fun u hu => .signed (.function hw hu)) hs
    | operator op =>
      have hr : op = .sub ∧ alternates false rest = true := by
        simpa [alternates, Item.takesTurn, Item.endsOperand] using ha
      obtain ⟨rfl, hr⟩ := hr
      refine (((ih depth rest hlt hd).1 hr).after fun s hs => ?_).cons
      exact WellFormed.sum_of_signed [_] (fun u hu => .signed (.negation hu)) hs
    | opening =>
      have hr : alternates false rest = true := by
        simpa [alternates, Item.takesTurn, Item.endsOperand] using ha
      exact ((ih (depth + 1) rest hlt hd).1 hr).parentheses ih
    | _ => simp [alternates, Item.takesTurn] at ha

theorem continueBelow (n : Nat) : ContinueBelow n := by
  induction n with
  | zero => exact fun _ _ hn => absurd hn (Nat.not_lt_zero _)
  | succ n ih =>
    intro depth tokens hn hd
    have hshorter : ContinueBelow tokens.length := fun d t ht => ih d t (by omega)
    exact ⟨continues_awaited hshorter hd, fun ha s hs => continues_behind hshorter hd ha hs⟩

theorem wellFormed_of_alternates (hd : balancedFrom 0 tokens = true)
    (ha : alternates false tokens = true) : WellFormed .sum tokens := by
  obtain ⟨s, rest, rfl, hs, -, hr, hclose⟩ :=
    (continueBelow (tokens.length + 1) 0 tokens (Nat.lt_succ_self _) hd).1 ha
  match rest with
  | [] => rwa [List.append_nil]
  | ⟨_, last⟩ :: rest =>
    obtain rfl := hclose _ rfl
    simp [balancedFrom] at hr

end Continuing

/-! ### Counting -/

/-- What an item adds to the number of operands on the stack. -/
def Item.weight : Item → Int
  | number _ => 1
  | operator _ => -1
  | _ => 0

/-- How many operands the tokens of a postfix form leave. -/
def surplus : List Token → Int
  | [] => 0
  | token :: tokens => token.item.weight + surplus tokens

@[simp] theorem surplus_append (s t : List Token) : surplus (s ++ t) = surplus s + surplus t := by
  induction s with
  | nil => simp [surplus]
  | cons token s ih =>
    rw [List.cons_append, surplus, surplus, ih]
    omega

theorem surplus_postorder (t : Tree) : surplus t.postorder = 1 := by
  induction t with
  | number value position => rfl
  | binary op position left right ihl ihr =>
    rw [Tree.postorder, surplus_append, surplus_append, ihl, ihr]
    rfl
  | suffixed mark position operand ih | negated position operand ih
  | call word position operand ih =>
    rw [Tree.postorder, surplus_append, ih]
    rfl

theorem surplus_perm {s t : List Token} (h : s.Perm t) : surplus s = surplus t := by
  induction h with
  | nil => rfl
  | cons token _ ih => rw [surplus, surplus, ih]
  | swap a b s =>
    simp only [surplus]
    omega
  | trans _ _ ihs iht => exact ihs.trans iht

/-- Whether an operand ends with the item before a token. -/
def ended (previous : Option Item) : Bool := previous.any Item.endsOperand

section Counting

variable {tokens : List Token} {previous : Option Item} {token : Token}

theorem ended_of_negates (h : negates previous = true) : ended previous = false := by
  match previous with
  | none => rfl
  | some item => cases item <;> first | rfl | cases h

/-- A token that does not stand directly behind an operand adds at most the operand that ends with
it, less one that has ended before, and takes its turn if it adds as much. -/
theorem surplus_converted_token (hn : token.item ≠ .negation) (hc : token.item ≠ .comma)
    (hs : ended previous = true → token.item.startsOperand = false) :
    (ended previous).toInt + surplus (token.converted previous) ≤ token.item.endsOperand.toInt ∧
      ((ended previous).toInt + surplus (token.converted previous) =
        token.item.endsOperand.toInt → token.item.takesTurn (ended previous) = true) := by
  obtain ⟨item, position⟩ := token
  cases item with
  | number value | opening =>
    cases he : ended previous with
    | true => cases hs he
    | false => exact ⟨Int.le_refl _, fun _ => rfl⟩
  | name word =>
    cases he : ended previous with
    | true => cases hs he
    | false =>
      cases hw : constant? word <;>
        simp [Token.converted, hw, Item.weight, Item.endsOperand, Item.takesTurn, surplus]
  | closing | suffix mark =>
    cases ended previous <;>
      simp [Token.converted, Item.weight, Item.endsOperand, Item.takesTurn, surplus]
  | operator op =>
    by_cases hop : op = .sub ∧ negates previous = true
    · rw [ended_of_negates hop.2]
      simp [Token.converted, hop, Item.weight, Item.endsOperand, Item.takesTurn, surplus]
    · cases ended previous <;>
        simp [Token.converted, hop, Item.weight, Item.endsOperand, Item.takesTurn, surplus]
  | comma => exact absurd rfl hc
  | negation => exact absurd rfl hn

/-- Among separate tokens the count is at most one operand, and they alternate if it is one. -/
theorem surplus_converted (hn : ∀ t ∈ tokens, t.item ≠ .negation) (hsep : Separate tokens)
    (hs : ∀ t ∈ tokens.head?, ended previous = true → t.item.startsOperand = false) :
    (ended previous).toInt + surplus (converted previous tokens) ≤ 1 ∧
      ((ended previous).toInt + surplus (converted previous tokens) = 1 →
        alternates (ended previous) tokens = true) := by
  induction tokens generalizing previous with
  | nil => cases ended previous <;> simp [converted, surplus, alternates]
  | cons token tokens ih =>
    have hsep' : Separate tokens :=
      ⟨fun t ht => hsep.comma t (.tail _ ht), hsep.chain.tail⟩
    obtain ⟨hle, heq⟩ := surplus_converted_token (hn token (.head _)) (hsep.comma token (.head _))
      (hs token rfl)
    have hnext : ∀ t ∈ tokens.head?, ended (some token.item) = true →
        t.item.startsOperand = false := fun t ht he => hsep.chain.rel_head? ht he
    obtain ⟨ihle, iheq⟩ := ih (fun t ht => hn t (.tail _ ht)) hsep' hnext
    rw [show ended (some token.item) = token.item.endsOperand from rfl] at ihle iheq
    rw [converted, surplus_append]
    refine ⟨by omega, fun h => ?_⟩
    rw [alternates, heq (by omega), iheq (by omega)]
    rfl

end Counting

/-! ### The texts that have a value -/

section Separation

variable {s t tokens output : List Token} {token : Token} {category : Category}

theorem Separate.cons (h : Separate t) (hc : token.item ≠ .comma)
    (he : token.item.endsOperand = false) : Separate (token :: t) where
  comma := by
    rintro u (_ | ⟨_, hu⟩)
    · exact hc
    · exact h.comma u hu
  chain := h.chain.cons fun u _ hu => by rw [he] at hu; cases hu

theorem Separate.append_cons (hs : Separate s) (ht : Separate (token :: t))
    (hb : token.item.startsOperand = false) : Separate (s ++ token :: t) where
  comma := by
    intro u hu
    rcases List.mem_append.mp hu with hu | hu
    · exact hs.comma u hu
    · exact ht.comma u hu
  chain := by
    refine hs.chain.append ht.chain fun u _ v hv _ => ?_
    obtain rfl := Option.some.inj hv
    exact hb

theorem Separate.singleton (hc : token.item ≠ .comma) : Separate [token] where
  comma := by simpa using hc
  chain := .singleton token

/-- In an expression, operators and parentheses keep the operands apart. -/
theorem WellFormed.separate (h : WellFormed category s) : Separate s := by
  induction h with
  | product _ ih | signed _ ih | power _ ih | suffixed _ ih | primary _ ih | group _ ih => exact ih
  | sum _ _ _ ihs iht | multiple _ _ _ ihs iht | raised _ _ ihs iht =>
    exact ihs.append_cons (iht.cons (by simp) rfl) rfl
  | negation _ ih => exact ih.cons (by simp) rfl
  | function hw _ ih | call hw _ ih => exact ih.cons (by simp) (by simp [Item.endsOperand, hw])
  | suffix _ ih => exact ih.append_cons (.singleton (by simp)) rfl
  | number | constant => exact .singleton (by simp)
  | parentheses _ ih => exact (ih.append_cons (.singleton (by simp)) rfl).cons (by simp) rfl

/-- The conversion refuses a negation: the scanner reads each minus as an operator. -/
theorem item_ne_negation {stack : List Token} {previous : Option Item}
    (h : toPostfixFrom stack previous tokens = .ok output) : ∀ t ∈ tokens, t.item ≠ .negation := by
  induction tokens generalizing stack previous output with
  | nil => simp
  | cons token tokens ih =>
    obtain ⟨out, stack', rest, hstep, hrest, -⟩ := exists_step h
    rintro t (_ | ⟨_, ht⟩)
    · cases hstep <;> simp
    · exact ih hrest t ht

/-- Separate tokens whose postfix form has a value are an expression. -/
theorem wellFormed_of_separate {degrees : Bool} {value : Double}
    (hp : toPostfix tokens = .ok output) (hv : valueOf degrees output = .ok value)
    (hsep : Separate tokens) : WellFormed .sum tokens := by
  obtain ⟨tree, rfl, -⟩ := Tree.exists_of_valueOf hv
  have hone : surplus (converted none tokens) = 1 := by
    rw [← surplus_perm (toPostfix_perm hp), surplus_postorder]
  have hturns := (surplus_converted (item_ne_negation hp) hsep
    fun _ _ h => absurd (show ended none = true from h) Bool.false_ne_true).2
  exact wellFormed_of_alternates (balancedFrom_of_toPostfix hp) (hturns (by rw [hone]; rfl))

end Separation

/-- The texts that have a value and are not expressions as one writes them are those in which an
operand follows an operand or a comma stands: a text with a value has tokens, and these are derived
from the grammar just if no comma is among them and no operand directly follows another. -/
theorem wellFormed_iff_separate {degrees : Bool} {s : Text} {value : Double}
    (h : evaluate degrees s = .ok value) :
    ∃ tokens, scan (normalized s) = .ok tokens ∧ (WellFormed .sum tokens ↔ Separate tokens) := by
  obtain ⟨tokens, output, hscan, hp, hv⟩ := evaluate_eq_ok.mp h
  exact ⟨tokens, hscan, fun hw => hw.separate, wellFormed_of_separate hp hv⟩

theorem wellFormed_iff_separate_root :
    evaluate true "-sqrt(9) * 2" = .ok (Double.neg 6) ∧
      ∃ tokens, scan (normalized "-sqrt(9) * 2") = .ok tokens ∧
        (WellFormed .sum tokens ↔ Separate tokens) := by
  have h : evaluate true "-sqrt(9) * 2" = .ok (Double.neg 6) := by decide +kernel
  exact ⟨h, wellFormed_iff_separate h⟩

/-- Two operands side by side have a value if an operator follows them. -/
theorem not_wellFormed_of_evaluate :
    evaluate true "(2)(3)+" = .ok 5 ∧
      ∃ tokens, scan (normalized "(2)(3)+") = .ok tokens ∧ ¬WellFormed .sum tokens := by
  refine ⟨by decide +kernel, [⟨.opening, 0⟩, ⟨.number 2, 1⟩, ⟨.closing, 2⟩, ⟨.opening, 3⟩,
    ⟨.number 3, 4⟩, ⟨.closing, 5⟩, ⟨.operator .add, 6⟩], by decide +kernel, fun h => ?_⟩
  have hchain := h.separate.chain
  simp [Item.endsOperand, Item.startsOperand] at hchain

end Reckoner
