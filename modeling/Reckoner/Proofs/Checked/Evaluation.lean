import Reckoner.Proofs.Checked.Display
import Reckoner.Proofs.Expression.Display

/-! The value of a postfix form, whatever the operators and functions compute.  Each operation that
is not called under a guard has a result, so an evaluation of a text has a finite value or halts
with an error of the expression. -/

namespace Reckoner

/-- A quotient by a number that is not zero has a value. -/
theorem exists_div (a : Double) {negative : Bool} {p : ℕ} {hp : p < ordinalCount} (h : p ≠ 0) :
    ∃ quotient, a.div (.finite negative p hp) = .ok quotient := by
  obtain ⟨p, rfl⟩ := Nat.exists_eq_succ_of_ne_zero h
  cases a <;> exact ⟨_, rfl⟩

theorem exists_div_hundred (a : Double) : ∃ quotient, a.div 100 = .ok quotient := by
  have h : (100 : Double) = .finite false 0x4059000000000000 (by decide) := by decide +kernel
  rw [h]
  exact exists_div a (by decide)

/-- An angle in degrees is an angle in radians, which may be infinite. -/
theorem exists_radians (a : Double) : ∃ angle, radians a = .ok angle := by
  have h : (180 : Double) = .finite false 0x4066800000000000 (by decide) := by decide +kernel
  rw [radians, h]
  exact exists_div _ (by decide)

/-! ### Any operators and functions -/

namespace Operations

/-- The stack after an item, where the operators and functions are these. -/
def applyItem (operations : Operations) (degrees : Bool) (stack : List Double) :
    Item → Except EvalError (List Double)
  | .operator op =>
    match stack with
    | b :: a :: rest => do return (← finiteResult (operations.binary op a b)) :: rest
    | _ => .error .stackUnderflow
  | .name word =>
    match Function.named? word, stack with
    | none, _ => .error (.unknownFunction word)
    | some f, a :: rest => do
      return (← finiteResult (if f.isAngular && degrees then radians a >>= operations.unary f
        else operations.unary f a)) :: rest
    | some _, [] => .error .stackUnderflow
  | item => Reckoner.applyItem degrees stack item

/-- The value of a postfix form, where the operators and functions are these. -/
def valueOf (operations : Operations) (degrees : Bool) (tokens : List Token) :
    Except EvalError Double := do
  match ← tokens.foldlM (fun stack token => operations.applyItem degrees stack token.item) [] with
  | [value] => return value
  | _ => throw .invalidExpression

theorem applyItem_standard (degrees : Bool) (stack : List Double) (item : Item) :
    standard.applyItem degrees stack item = Reckoner.applyItem degrees stack item := by
  cases item <;> rfl

theorem valueOf_standard (degrees : Bool) (tokens : List Token) :
    standard.valueOf degrees tokens = Reckoner.valueOf degrees tokens := by
  simp only [valueOf, applyItem_standard]
  rfl

end Operations

namespace Checked

/-- What an evaluation gives, with its errors as halts. -/
def valued {α : Type} (result : Except EvalError α) : Checked α :=
  result.mapError fun error => .error (.eval error)

theorem valued_bind {α β : Type} (result : Except EvalError α) (f : α → Except EvalError β) :
    valued (result >>= f) = valued result >>= fun a => valued (f a) := by
  cases result <;> rfl

theorem ok_bind {α β : Type} (a : α) (f : α → Checked β) : Except.ok a >>= f = f a := rfl

theorem finite_eq (value : Double) : finite value = valued (Reckoner.finite value) := by
  rw [finite, Reckoner.finite]
  split <;> rfl

/-- The faults of an operation are those that its call catches. -/
theorem called_raised (result : Except MathFault Double) :
    called (raised result) = valued (finiteResult result) := by
  cases result with
  | ok value => exact finite_eq value
  | error fault => cases fault <;> rfl

/-- The argument of a function, which is converted outside the guard of its call. -/
theorem exists_angle (inDegrees : Bool) (a : Double) :
    ∃ argument, angle inDegrees a = .ok argument ∧
      ∀ f : Double → Except MathFault Double,
        (if inDegrees then radians a >>= f else f a) = f argument := by
  cases inDegrees with
  | false => exact ⟨a, rfl, fun _ => rfl⟩
  | true =>
    obtain ⟨argument, h⟩ := exists_radians a
    -- A fault of the conversion would not be caught.
    have hangle : angle true a = raised (radians a) := rfl
    refine ⟨argument, ?_, fun f => ?_⟩
    · rw [hangle, h]
      rfl
    · rw [if_pos rfl, h]
      rfl

/-! ### The factorial -/

theorem doubleOf_eq {k : ℕ} (h : k ≤ maxFactorial) : doubleOf k = .ok (.ofNat k) := by
  have hall : ∀ k < maxFactorial + 1, (Double.ofNat k).isFinite = true := by decide +kernel
  exact if_pos (hall k (Nat.lt_succ_of_le h))

theorem foldlM_ok {α β : Type} {f : β → α → Checked β} {g : β → α → β} {l : List α}
    (h : ∀ a ∈ l, ∀ b, f b a = .ok (g b a)) (b : β) : l.foldlM f b = .ok (l.foldl g b) := by
  induction l generalizing b with
  | nil => rfl
  | cons a l ih =>
    obtain ⟨ha, hl⟩ := List.forall_mem_cons.mp h
    rw [List.foldlM_cons, ha, List.foldl_cons, ← ih hl]
    rfl

/-- The comparison with the largest number is that of whole numbers. -/
theorem max_lt_whole {value : Double} {n : ℤ} (h : value.toInt? = some n)
    (hsign : value.lt 0 = false) :
    (Double.ofNat maxFactorial).lt value = decide ((maxFactorial : ℤ) < n) := by
  have hmax : Double.ofNat maxFactorial = .finite false 0x4065400000000000 (by decide) := by
    decide +kernel
  have hunits : unitsOf 0x4065400000000000 = maxFactorial * unitsPerOne := by decide +kernel
  have hzero : (0 : Double) = .finite false 0 (by decide) := by decide +kernel
  obtain ⟨negative, o, ho, rfl, hvalue, hn⟩ := exists_units_of_toInt? h
  have hlt := ordinal_lt_iff hunits hvalue
  rw [hzero] at hsign
  rw [hmax]
  simp only [Double.lt, Double.rank?, decide_eq_false_iff_not] at hsign ⊢
  refine decide_eq_decide.mpr ?_
  cases negative with
  | false =>
    simp only [Bool.false_eq_true, if_false] at hn ⊢
    omega
  | true =>
    -- Zero is the one such number with a minus sign.
    simp only [Bool.false_eq_true, if_false, if_true] at hsign hn ⊢
    omega

theorem factorial_eq (n : Double) : factorial n = valued n.factorial := by
  rw [factorial, Double.factorial]
  split
  case isTrue => rfl
  case isFalse h =>
    cases hint : n.toInt? with
    | none => rfl
    | some k =>
      have hsign : n.lt 0 = false := by
        cases hlt : n.lt 0 with
        | false => rfl
        | true => simp [hlt] at h
      have hfactors (hk : k ≤ maxFactorial) : ∀ j ∈ List.range (k.toNat - 1), ∀ product,
          (do return Double.mul product (← doubleOf (j + 2)) : Checked Double) =
            .ok (product.mul (.ofNat (j + 2))) := by
        intro j hj product
        have hj := List.mem_range.mp hj
        rw [doubleOf_eq (by omega)]
        rfl
      simp only [max_lt_whole hint hsign, truncated_of_toInt? hint, decide_eq_true_eq]
      by_cases hk : (maxFactorial : ℤ) < k
      · rw [if_pos hk, if_pos hk]
        rfl
      · rw [if_neg hk, if_neg hk]
        exact foldlM_ok (hfactors (Int.not_lt.mp hk)) 1

/-! ### One token -/

section Items

variable {operations : Operations} {stack : List Double} {degrees : Bool}

theorem operands_append (values rest : List Double) :
    operands (values ++ rest) values.length = .ok (values, rest) := by
  have hlength : ¬(values ++ rest).length < values.length := by
    rw [List.length_append]
    omega
  rw [operands, if_neg hlength, List.take_left, List.drop_left]
  rfl

theorem lookup_functions (word : Text) : functions.lookup word = Function.named? word := by
  rw [functions, Function.named?]
  induction Function.all with
  | nil => rfl
  | cons f all ih =>
    rw [List.map_cons, List.lookup_cons, List.find?_cons, ih, Bool.beq_comm]

theorem operands_one (a : Double) (rest : List Double) :
    operands (a :: rest) 1 = .ok ([a], rest) := operands_append [a] rest

theorem operands_two (b a : Double) (rest : List Double) :
    operands (b :: a :: rest) 2 = .ok ([b, a], rest) := operands_append [b, a] rest

theorem applyToken_number (value : Double) (position : ℤ) :
    applyToken operations degrees stack (Token.raw ⟨.number value, position⟩) =
      valued (operations.applyItem degrees stack (.number value)) := by
  have hitem : operations.applyItem degrees stack (.number value) = do
      return (← Reckoner.finite value) :: stack := rfl
  rw [hitem, valued_bind, ← finite_eq]
  rfl

theorem applyToken_operator (op : Operator) (position : ℤ) :
    applyToken operations degrees stack (Token.raw ⟨.operator op, position⟩) =
      valued (operations.applyItem degrees stack (.operator op)) := by
  match stack with
  | [] | [_] => rfl
  | b :: a :: rest =>
    rw [Operations.applyItem, valued_bind, ← called_raised]
    simp only [applyToken, Token.raw, Item.kind, Item.content, textOf, operands_two, pair,
      entry_operators, ok_bind, pure_bind]
    rfl

theorem applyToken_suffix (mark : Suffix) (position : ℤ) :
    applyToken operations degrees stack (Token.raw ⟨.suffix mark, position⟩) =
      valued (operations.applyItem degrees stack (.suffix mark)) := by
  match stack with
  | [] => rfl
  | a :: rest =>
    have hitem : operations.applyItem degrees (a :: rest) (.suffix mark) = do
        return (← mark.apply a) :: rest := rfl
    rw [hitem, valued_bind]
    simp only [applyToken, Token.raw, Item.kind, Item.content, operands_one, single, ok_bind,
      pure_bind]
    cases mark with
    | factorial =>
      rw [Suffix.apply, valued_bind, ← factorial_eq, bind_assoc]
      simp only [← finite_eq]
      rfl
    | percent =>
      obtain ⟨quotient, hdiv⟩ := exists_div_hundred a
      rw [Suffix.apply, hdiv, finiteResult, ← finite_eq]
      rfl

theorem applyToken_name (word : Text) (position : ℤ) :
    applyToken operations degrees stack (Token.raw ⟨.name word, position⟩) =
      valued (operations.applyItem degrees stack (.name word)) := by
  simp only [applyToken, Token.raw, Item.kind, Item.content, textOf, lookup_functions]
  cases hf : Function.named? word with
  | none =>
    simp only [Operations.applyItem, hf]
    rfl
  | some f =>
    simp only [Operations.applyItem, hf]
    cases stack with
    | nil => rfl
    | cons a rest =>
      dsimp only
      obtain ⟨argument, hangle, hcall⟩ := exists_angle (f.isAngular && degrees) a
      rw [hcall, valued_bind, ← called_raised]
      simp only [operands_one, single, hangle, ok_bind, pure_bind]
      rfl

/-- A token leaves the stack that its item leaves. -/
theorem applyToken_raw (t : Token) :
    applyToken operations degrees stack t.raw =
      valued (operations.applyItem degrees stack t.item) := by
  obtain ⟨item, position⟩ := t
  cases item with
  | number value => exact applyToken_number value position
  | operator op => exact applyToken_operator op position
  | suffix mark => exact applyToken_suffix mark position
  | name word => exact applyToken_name word position
  | negation => cases stack <;> rfl
  | opening | closing | comma => rfl

end Items

/-! ### A whole evaluation -/

section Runs

variable (operations : Operations) (degrees : Bool)

theorem applyTokens_raw (stack : List Double) (tokens : List Token) :
    (tokens.map Token.raw).foldlM (applyToken operations degrees) stack =
      valued (tokens.foldlM (fun stack t => operations.applyItem degrees stack t.item) stack) := by
  induction tokens generalizing stack with
  | nil => rfl
  | cons t tokens ih =>
    rw [List.map_cons, List.foldlM_cons, List.foldlM_cons, valued_bind, applyToken_raw]
    simp only [ih]

/-- The one operand that is left is taken from a stack that has it. -/
theorem valueOf_raw (tokens : List Token) :
    valueOf operations degrees (tokens.map Token.raw) =
      valued (operations.valueOf degrees tokens) := by
  rw [valueOf, applyTokens_raw, Operations.valueOf, valued_bind]
  congr 1
  funext stack
  match stack with
  | [] | [_] => rfl
  | a :: b :: rest =>
    rw [if_neg (by simp)]
    rfl

/-- The evaluation with partial operations is the evaluation without them. -/
theorem evaluate_eq (s : Text) : evaluate operations degrees s =
    match Reckoner.explain s with
    | .ok form => valued (operations.valueOf degrees form)
    | .error error => fail error := by
  rw [evaluate, explain_eq]
  cases Reckoner.explain s with
  | error error => rfl
  | ok form =>
    simp only [rawly, pure_bind, tokensText_raw, ok_bind, valueOf_raw]

end Runs

end Checked

/-! ### Finite values -/

section Finite

variable {operations : Operations} {degrees : Bool} {stack stack' : List Double}

theorem isFinite_of_finite {value result : Double} (h : finite value = .ok result) :
    result.isFinite = true := by
  rw [finite] at h
  split at h
  case isTrue hfinite => exact Except.ok.inj h ▸ hfinite
  case isFalse => cases h

theorem isFinite_of_finiteResult {result : Except MathFault Double} {value : Double}
    (h : finiteResult result = .ok value) : value.isFinite = true := by
  cases result with
  | ok => exact isFinite_of_finite h
  | error => cases h

theorem isFinite_of_suffix {mark : Suffix} {a value : Double} (h : mark.apply a = .ok value) :
    value.isFinite = true := by
  cases mark with
  | factorial =>
    obtain ⟨product, -, h⟩ := bind_eq_ok h
    exact isFinite_of_finite h
  | percent =>
    have hquotient : finiteResult (a.div 100) = .ok value := h
    exact isFinite_of_finiteResult hquotient

theorem isFinite_neg (a : Double) : a.neg.isFinite = a.isFinite := by
  cases a <;> rfl

/-- Every item keeps the operands finite. -/
theorem isFinite_of_applyItem {item : Item}
    (h : operations.applyItem degrees stack item = .ok stack')
    (hstack : ∀ a ∈ stack, a.isFinite = true) : ∀ a ∈ stack', a.isFinite = true := by
  -- What is put on the stack comes from `finite`, but for a negation, which keeps what it finds.
  have push {rest : List Double} {result : Except EvalError Double}
      (hrest : ∀ a ∈ rest, a.isFinite = true)
      (hresult : ∀ value, result = .ok value → value.isFinite = true)
      (h : (do return (← result) :: rest) = .ok stack') : ∀ a ∈ stack', a.isFinite = true := by
    obtain ⟨value, hvalue, h⟩ := bind_eq_ok h
    cases h
    exact List.forall_mem_cons.mpr ⟨hresult value hvalue, hrest⟩
  cases item with
  | number value => exact push hstack (fun _ => isFinite_of_finite) h
  | operator op =>
    match stack with
    | [] | [_] => cases h
    | b :: a :: rest =>
      have hrest := (List.forall_mem_cons.mp (List.forall_mem_cons.mp hstack).2).2
      exact push hrest (fun _ => isFinite_of_finiteResult) h
  | suffix mark =>
    match stack with
    | [] => cases h
    | a :: rest => exact push (List.forall_mem_cons.mp hstack).2 (fun _ => isFinite_of_suffix) h
  | negation =>
    match stack with
    | [] => cases h
    | a :: rest =>
      cases h
      obtain ⟨ha, hrest⟩ := List.forall_mem_cons.mp hstack
      exact List.forall_mem_cons.mpr ⟨(isFinite_neg a).trans ha, hrest⟩
  | name word =>
    simp only [Operations.applyItem] at h
    cases hf : Function.named? word with
    | none => simp [hf] at h
    | some f =>
      match stack with
      | [] => simp [hf] at h
      | a :: rest =>
        simp only [hf] at h
        exact push (List.forall_mem_cons.mp hstack).2 (fun _ => isFinite_of_finiteResult) h
  | opening | closing | comma => cases h

theorem isFinite_of_applyItems {tokens : List Token}
    (h : tokens.foldlM (fun stack t => operations.applyItem degrees stack t.item) stack =
      .ok stack')
    (hstack : ∀ a ∈ stack, a.isFinite = true) : ∀ a ∈ stack', a.isFinite = true := by
  induction tokens generalizing stack with
  | nil =>
    cases h
    exact hstack
  | cons t tokens ih =>
    rw [List.foldlM_cons] at h
    obtain ⟨between, hitem, h⟩ := bind_eq_ok h
    exact ih h (isFinite_of_applyItem hitem hstack)

theorem isFinite_of_valueOf {tokens : List Token} {value : Double}
    (h : operations.valueOf degrees tokens = .ok value) : value.isFinite = true := by
  obtain ⟨stack, hstack, h⟩ := bind_eq_ok h
  have hfinite := isFinite_of_applyItems hstack (by simp)
  match stack with
  | [] | _ :: _ :: _ => cases h
  | [a] =>
    cases h
    exact hfinite _ (.head _)

theorem isFinite_of_evaluate {s : Text} {value : Double} (h : evaluate degrees s = .ok value) :
    value.isFinite = true := by
  obtain ⟨form, -, h⟩ := bind_eq_ok h
  cases hvalue : Reckoner.valueOf degrees form with
  | error error =>
    rw [hvalue] at h
    cases h
  | ok result =>
    rw [hvalue] at h
    obtain rfl := Except.ok.inj h
    exact isFinite_of_valueOf ((Operations.valueOf_standard degrees form).trans hvalue)

end Finite

/-- Whatever the operators and functions compute, the evaluation of a text with partial operations
has a finite value, which is shown as digits, with one point or none and with a minus sign or none,
or halts with an error of the expression, which is never that of a token that the conversion does
not know; it never halts with a slip.  With the arithmetic and functions of this library it is the
evaluation of the text. -/
theorem evaluate_closed (degrees : Bool) (s : Text) :
    (∀ operations : Operations,
      (∃ value, Checked.evaluate operations degrees s = .ok value ∧ value.isFinite = true ∧
        ∃ negative body, IsLiteral body ∧ shown value = Double.signText negative ++ body) ∨
      ∃ error, Checked.evaluate operations degrees s = .error (.error error) ∧
        error ≠ .parse .unexpectedToken) ∧
    Checked.evaluate .standard degrees s = (evaluate degrees s).mapError .error := by
  refine ⟨fun operations => ?_, ?_⟩
  · rw [Checked.evaluate_eq]
    cases hform : explain s with
    | error error =>
      refine .inr ⟨error, rfl, ?_⟩
      rintro rfl
      exact Checked.explain_ne_unexpectedToken s hform
    | ok form =>
      cases hvalue : operations.valueOf degrees form with
      | error error => exact .inr ⟨.eval error, congrArg Checked.valued hvalue, nofun⟩
      | ok value =>
        have hfinite := isFinite_of_valueOf hvalue
        exact .inl ⟨value, congrArg Checked.valued hvalue, hfinite, exists_literal_shown hfinite⟩
  · rw [Checked.evaluate_eq, evaluate]
    cases explain s with
    | error error => rfl
    | ok form =>
      have hvalue : Checked.valued (Operations.standard.valueOf degrees form) =
          ((valueOf degrees form).mapError .eval).mapError .error := by
        rw [Operations.valueOf_standard]
        cases valueOf degrees form <;> rfl
      exact hvalue

end Reckoner
