import Mathlib.Data.List.Perm.Basic
import Mathlib.Data.List.Sort
import Reckoner.Proofs.Expression.Conservation

/-! The order of the postfix form.  Numbers and suffixes are written as soon as they are read, and all
else waits on the stack: what is written is what was read, in an order in which nothing comes before a
number or a suffix that did not stand before it. -/

namespace Reckoner

/-! ### What is written for what is read -/

/-- Places where an operand is awaited: the start, and after an operator, an open parenthesis or a
comma. -/
inductive OperandAwaited : Option Item → Prop
  | start : OperandAwaited none
  | operator (op : Operator) : OperandAwaited (some (.operator op))
  | opening : OperandAwaited (some .opening)
  | comma : OperandAwaited (some .comma)

/-- What is written for a token after the item `previous`: nothing for parentheses and commas, its
number for a constant, a negation for a minus where an operand is awaited, and any other token
itself. -/
inductive Becomes (previous : Option Item) : Token → List Token → Prop
  | bracket {item : Item} {position : Int} (h : item ∈ [.opening, .closing, .comma]) :
      Becomes previous ⟨item, position⟩ []
  | pi {position : Int} :
      Becomes previous ⟨.name "pi".toList, position⟩ [⟨.number .pi, position⟩]
  | e {position : Int} : Becomes previous ⟨.name "e".toList, position⟩ [⟨.number .e, position⟩]
  | negation {position : Int} (h : OperandAwaited previous) :
      Becomes previous ⟨.operator .sub, position⟩ [⟨.negation, position⟩]
  | itself {token : Token} (hbracket : token.item ∉ [.opening, .closing, .comma])
      (hconstant : token.item ∉ [.name "pi".toList, .name "e".toList])
      (hminus : token.item = .operator .sub → ¬OperandAwaited previous) :
      Becomes previous token [token]

/-- What is written for tokens after the item `previous`, in the order in which they are read. -/
inductive Rewritten : Option Item → List Token → List Token → Prop
  | nil {previous : Option Item} : Rewritten previous [] []
  | cons {previous : Option Item} {token : Token} {tokens out input : List Token}
      (h : Becomes previous token out) (hmore : Rewritten (some token.item) tokens input) :
      Rewritten previous (token :: tokens) (out ++ input)

theorem operandAwaited_iff {previous : Option Item} :
    OperandAwaited previous ↔ negates previous = true := by
  constructor
  · rintro (_ | op | _ | _) <;> rfl
  · intro h
    cases previous with
    | none => exact .start
    | some item =>
      cases item with
      | operator op => exact .operator op
      | opening => exact .opening
      | comma => exact .comma
      | _ => cases h

theorem becomes_converted (previous : Option Item) (token : Token) :
    Becomes previous token (token.converted previous) := by
  obtain ⟨item, position⟩ := token
  cases item with
  | opening | closing | comma => exact .bracket (by simp)
  | name word =>
    by_cases hpi : word = "pi".toList
    · subst hpi
      exact .pi
    · by_cases he : word = "e".toList
      · subst he
        exact .e
      · have hnone : constant? word = none := by rw [constant?, if_neg hpi, if_neg he]
        rw [Token.converted]
        simp only [hnone]
        exact .itself (by simp) (by simpa using ⟨hpi, he⟩) (by simp)
  | operator op =>
    rw [Token.converted]
    dsimp only
    split
    case isTrue h =>
      obtain ⟨rfl, hnegates⟩ := h
      exact .negation (operandAwaited_iff.mpr hnegates)
    case isFalse h =>
      refine .itself (by simp) (by simp) fun hminus hawaited => h ⟨?_, operandAwaited_iff.mp hawaited⟩
      exact Item.operator.inj hminus
  | _ => exact .itself (by simp) (by simp) (by simp)

theorem rewritten_converted (previous : Option Item) (tokens : List Token) :
    Rewritten previous tokens (converted previous tokens) := by
  induction tokens generalizing previous with
  | nil => exact .nil
  | cons token tokens ih => exact .cons (becomes_converted previous token) (ih _)

/-! ### Numbers and suffixes -/

/-- Whether an item is written as soon as it is read. -/
def Item.isImmediate : Item → Bool
  | number _ | suffix _ => true
  | _ => false

/-- Whether a token waits for others. -/
def Token.waits (token : Token) : Bool := !token.item.isImmediate

section Order

variable {stack stack' out tokens output : List Token} {previous : Option Item} {token : Token}

/-- A step leaves only tokens on the stack that wait. -/
theorem Step.waits (h : Step stack previous token out stack') (hstack : ∀ t ∈ stack, t.waits = true) :
    ∀ t ∈ stack', t.waits = true := by
  cases h with
  | number | suffix | constant => exact hstack
  | function | negation | opening => exact List.forall_mem_cons.mpr ⟨rfl, hstack⟩
  | operator =>
    exact List.forall_mem_cons.mpr ⟨rfl, fun t ht => hstack t (List.dropWhile_subset _ ht)⟩
  | comma hs =>
    subst hs
    exact fun t ht => hstack t (List.mem_append_right _ ht)
  | @closing inside below paren _ hs =>
    subst hs
    refine fun t ht => hstack t (List.mem_append_right _ (.tail _ ?_))
    rw [← completed_append below]
    exact List.mem_append_right _ ht

/-- A step writes tokens that have waited, or one token. -/
theorem Step.out_waits (h : Step stack previous token out stack')
    (hstack : ∀ t ∈ stack, t.waits = true) : (∀ t ∈ out, t.waits = true) ∨ out.length = 1 := by
  cases h with
  | number | suffix | constant => exact .inr rfl
  | function | negation | opening => exact .inl (List.forall_mem_nil _)
  | operator => exact .inl fun t ht => hstack t ((List.takeWhile_subset _) ht)
  | comma hs =>
    subst hs
    exact .inl fun t ht => hstack t (List.mem_append_left _ ht)
  | @closing inside below paren _ hs =>
    subst hs
    refine .inl fun t ht => hstack t ?_
    rcases List.mem_append.mp ht with ht | ht
    · exact List.mem_append_left _ ht
    · refine List.mem_append_right _ (.tail _ ?_)
      rw [← completed_append below]
      exact List.mem_append_left _ ht

/-- Two tokens with the places at which they are read, of which `a` is written before `b`: before a
number or a suffix only that is written which stood before it. -/
def KeepsOrder (a b : Token × ℕ) : Prop := b.1.item.isImmediate = true → a.2 < b.2

theorem exists_map_fst_of_perm {l : List Token} {marked : List (Token × ℕ)}
    (h : l.Perm (marked.map Prod.fst)) :
    ∃ marked' : List (Token × ℕ), marked'.map Prod.fst = l ∧ marked'.Perm marked := by
  have hcomp := (congrFun (congrFun (List.eq_map_comp_perm Prod.fst) l) marked).mpr h
  obtain ⟨marked', rfl, hperm⟩ := hcomp
  exact ⟨marked', rfl, hperm⟩

theorem not_isImmediate_of_waits (h : token.waits = true) : ¬token.item.isImmediate = true := by
  simpa [Token.waits] using h

theorem pairwise_of_waits {marked : List (Token × ℕ)}
    (h : ∀ t ∈ marked.map Prod.fst, t.waits = true) : marked.Pairwise KeepsOrder :=
  List.pairwise_of_forall_mem_list fun _ _ b hb himmediate =>
    absurd himmediate (not_isImmediate_of_waits (h b.1 (List.mem_map_of_mem hb)))

/-- A conversion keeps the order, with the tokens that wait at places before those of the tokens that
are still to be read. -/
theorem toPostfixFrom_keepsOrder {marked : List (Token × ℕ)} {place : ℕ}
    (h : toPostfixFrom stack previous tokens = .ok output) (hstack : ∀ t ∈ stack, t.waits = true)
    (hmarked : (unwritten stack).Perm (marked.map Prod.fst)) (hplace : ∀ m ∈ marked, m.2 < place) :
    ∃ written : List (Token × ℕ), written.map Prod.fst = output ∧
      written.Perm (marked ++ (converted previous tokens).zipIdx place) ∧
      written.Pairwise KeepsOrder := by
  induction tokens generalizing stack previous output marked place with
  | nil =>
    obtain ⟨hinside, rfl⟩ := toPostfixFrom_nil.mp h
    rw [unwritten_of_inside hinside] at hmarked
    obtain ⟨written, rfl, hperm⟩ := exists_map_fst_of_perm hmarked
    exact ⟨written, rfl, by simpa [converted] using hperm, pairwise_of_waits hstack⟩
  | cons token tokens ih =>
    obtain ⟨out, stack', rest, hstep, hrest, rfl⟩ := exists_step h
    -- The tokens that the step writes, and those that it leaves on the stack, at their places.
    obtain ⟨now, later, hplaced, hnow, hlater⟩ : ∃ now later : List (Token × ℕ),
        (now ++ later).Perm (marked ++ (token.converted previous).zipIdx place) ∧
          now.map Prod.fst = out ∧ later.map Prod.fst = unwritten stack' := by
      have hperm : (out ++ unwritten stack').Perm
          ((marked ++ (token.converted previous).zipIdx place).map Prod.fst) := by
        rw [List.map_append, List.zipIdx_map_fst]
        exact hstep.perm.trans (List.perm_append_comm.trans (hmarked.append_right _))
      obtain ⟨both, hboth, hperm⟩ := exists_map_fst_of_perm hperm
      obtain ⟨now, later, rfl, hnow, hlater⟩ := List.map_eq_append_iff.mp hboth
      exact ⟨now, later, hperm, hnow, hlater⟩
    have hbefore : ∀ m ∈ now ++ later, m.2 < place + (token.converted previous).length := by
      intro m hm
      rcases List.mem_append.mp (hplaced.mem_iff.mp hm) with hm | hm
      · exact Nat.lt_add_right _ (hplace m hm)
      · exact List.snd_lt_add_of_mem_zipIdx hm
    have hwaits := hstep.waits hstack
    obtain ⟨written, hrestWritten, hperm, hpairwise⟩ := ih hrest hwaits (.of_eq hlater.symm)
      fun m hm => hbefore m (List.mem_append_right _ hm)
    refine ⟨now ++ written, by rw [List.map_append, hnow, hrestWritten], ?_, ?_⟩
    · rw [converted, List.zipIdx_append, ← List.append_assoc]
      refine (hperm.append_left now).trans ?_
      rw [← List.append_assoc]
      exact hplaced.append_right _
    · refine List.pairwise_append.mpr ⟨?_, hpairwise, fun a ha b hb himmediate => ?_⟩
      · rcases hstep.out_waits hstack with hout | hone
        · exact pairwise_of_waits (hnow ▸ hout)
        · obtain ⟨t, rfl⟩ := List.length_eq_one_iff.mp (by rwa [← hnow, List.length_map] at hone)
          exact List.pairwise_singleton _ _
      · -- A number or a suffix has not waited, so it has been read after this step.
        rcases List.mem_append.mp (hperm.mem_iff.mp hb) with hb | hb
        · refine absurd himmediate (not_isImmediate_of_waits (hwaits b.1 ?_))
          have hmem : b.1 ∈ unwritten stack' := hlater ▸ List.mem_map_of_mem hb
          exact List.mem_of_mem_filter hmem
        · exact Nat.lt_of_lt_of_le (hbefore a (List.mem_append_left _ ha))
            (List.le_snd_of_mem_zipIdx hb)

theorem pairwise_zipIdx (l : List Token) (place : ℕ) :
    (l.zipIdx place).Pairwise fun a b => a.2 < b.2 := by
  induction l generalizing place with
  | nil => exact .nil
  | cons t l ih =>
    exact List.pairwise_cons.mpr ⟨fun _ hb => List.le_snd_of_mem_zipIdx hb, ih (place + 1)⟩

/-- What is written as soon as it is read keeps its order. -/
theorem filter_eq_of_keepsOrder {written : List (Token × ℕ)} {input : List Token}
    (hperm : written.Perm input.zipIdx) (hpairwise : written.Pairwise KeepsOrder) :
    (written.map Prod.fst).filter (·.item.isImmediate) = input.filter (·.item.isImmediate) := by
  have hfst (marked : List (Token × ℕ)) : (marked.map Prod.fst).filter (·.item.isImmediate) =
      (marked.filter (·.1.item.isImmediate)).map Prod.fst := List.filter_map
  have hwritten : (written.filter (·.1.item.isImmediate)).Pairwise fun a b => a.2 < b.2 :=
    (hpairwise.filter _).imp_of_mem fun _ hb h => h (List.mem_filter.mp hb).2
  have hinput := (pairwise_zipIdx input 0).filter (·.1.item.isImmediate)
  have hsame := List.Perm.eq_of_pairwise (fun a b _ _ hab hba => absurd hba (Nat.lt_asymm hab))
    hwritten hinput (hperm.filter _)
  conv => rhs; rw [← List.zipIdx_map_fst 0 input]
  rw [hfst, hfst, hsame]

/-- A conversion that succeeds writes what its tokens become, each once.  Numbers and suffixes keep
their order, and every other token comes after the numbers and suffixes that stood before it. -/
theorem toPostfix_keepsOrder (h : toPostfix tokens = .ok output) :
    ∃ input, Rewritten none tokens input ∧ output.Perm input ∧
      output.filter (·.item.isImmediate) = input.filter (·.item.isImmediate) ∧
      ∃ written : List (Token × ℕ), written.map Prod.fst = output ∧ written.Perm input.zipIdx ∧
        written.Pairwise KeepsOrder := by
  obtain ⟨written, rfl, hperm, hpairwise⟩ := @toPostfixFrom_keepsOrder [] tokens output none [] 0 h
    (List.forall_mem_nil _) (.refl _) (List.forall_mem_nil _)
  exact ⟨converted none tokens, rewritten_converted none tokens, toPostfix_perm h,
    filter_eq_of_keepsOrder hperm hpairwise, written, rfl, hperm, hpairwise⟩

/-! A negation, a power with a group of two parts, of which one is a constant and one a negation, and a
function without an operand. -/

def mixedTokens : List Token :=
  [⟨.operator .sub, 0⟩, ⟨.number 2, 1⟩, ⟨.operator .pow, 2⟩, ⟨.opening, 3⟩, ⟨.name "pi".toList, 4⟩,
    ⟨.comma, 6⟩, ⟨.operator .sub, 7⟩, ⟨.number 3, 8⟩, ⟨.closing, 9⟩, ⟨.suffix .factorial, 10⟩,
    ⟨.name "sin".toList, 11⟩]

def mixedPostfix : List Token :=
  [⟨.number 2, 1⟩, ⟨.number .pi, 4⟩, ⟨.number 3, 8⟩, ⟨.negation, 7⟩, ⟨.suffix .factorial, 10⟩,
    ⟨.name "sin".toList, 11⟩, ⟨.operator .pow, 2⟩, ⟨.negation, 0⟩]

theorem toPostfix_keepsOrder_mixed : toPostfix mixedTokens = .ok mixedPostfix ∧
    ∃ input, Rewritten none mixedTokens input ∧ mixedPostfix.Perm input ∧
      mixedPostfix.filter (·.item.isImmediate) = input.filter (·.item.isImmediate) ∧
      ∃ written : List (Token × ℕ), written.map Prod.fst = mixedPostfix ∧
        written.Perm input.zipIdx ∧ written.Pairwise KeepsOrder := by
  have h : toPostfix mixedTokens = .ok mixedPostfix := by decide +kernel
  exact ⟨h, toPostfix_keepsOrder h⟩

end Order

end Reckoner
