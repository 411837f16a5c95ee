import Reckoner.Proofs.Expression.Conservation
import Reckoner.Proofs.Expression.Scanning

/-! Which tokens have a postfix form.  Only parentheses and commas decide: the tokens of a text are
converted just if the parentheses are balanced and every comma lies within one, and the first place
where that is not so tells why they are not. -/

namespace Reckoner

section Items

variable {depth depth' : ℕ} {item : Item} {items : List Item} {error : ParseError}

/-! ### Items that keep within their parentheses -/

/-- Items of which no part from the start closes more parentheses than are open, `depth` of them
before the items, and in which every comma stands where one is open. -/
structure Enclosed (depth : ℕ) (items : List Item) : Prop where
  closings (before : List Item) : before <+: items →
    before.count .closing ≤ depth + before.count .opening
  commas (before : List Item) : before ++ [.comma] <+: items →
    before.count .closing < depth + before.count .opening

theorem enclosed_nil (depth : ℕ) : Enclosed depth [] where
  closings before h := by
    rw [List.prefix_nil.mp h]
    exact Nat.zero_le _
  commas before h := by simp at h

/-- An item changes the depth by the parentheses that it opens and closes. -/
theorem count_of_depthAfter (h : depthAfter depth item = .ok depth') :
    [item].count .closing + depth' = depth + [item].count .opening := by
  cases item with
  | closing | comma =>
    cases depth with
    | zero => cases h
    | succ depth =>
      obtain rfl := Except.ok.inj h
      simp [Nat.add_comm]
  | _ =>
    obtain rfl := Except.ok.inj h
    simp

theorem exists_depthAfter (h : Enclosed depth (item :: items)) :
    ∃ depth', depthAfter depth item = .ok depth' := by
  cases item with
  | closing =>
    have hpos := h.closings [.closing] ⟨items, rfl⟩
    exact ⟨depth - 1, if_neg fun hzero => by simp [hzero] at hpos⟩
  | comma =>
    have hpos := h.commas [] ⟨items, rfl⟩
    exact ⟨depth, if_neg fun hzero => by simp [hzero] at hpos⟩
  | _ => exact ⟨_, rfl⟩

theorem depthAfter_comma (h : depthAfter depth .comma = .ok depth') : 0 < depth :=
  Nat.pos_of_ne_zero fun hzero => by simp [depthAfter, hzero] at h

theorem enclosed_cons (h : depthAfter depth item = .ok depth') :
    Enclosed depth (item :: items) ↔ Enclosed depth' items := by
  have hcount := count_of_depthAfter h
  have hcons (before : List Item) (i : Item) :
      (item :: before).count i = [item].count i + before.count i := by
    rw [← List.singleton_append, List.count_append]
  constructor
  · intro henclosed
    refine ⟨fun before hbefore => ?_, fun before hbefore => ?_⟩
    · have := henclosed.closings (item :: before) (List.cons_prefix_cons.mpr ⟨rfl, hbefore⟩)
      rw [hcons _ .closing, hcons _ .opening] at this
      omega
    · have := henclosed.commas (item :: before) (List.cons_prefix_cons.mpr ⟨rfl, hbefore⟩)
      rw [hcons _ .closing, hcons _ .opening] at this
      omega
  · intro henclosed
    refine ⟨fun before hbefore => ?_, fun before hbefore => ?_⟩
    · cases before with
      | nil => exact Nat.zero_le _
      | cons first before =>
        obtain ⟨rfl, hrest⟩ := List.cons_prefix_cons.mp hbefore
        have := henclosed.closings before hrest
        rw [hcons _ .closing, hcons _ .opening]
        omega
    · cases before with
      | nil =>
        obtain ⟨rfl, -⟩ := List.cons_prefix_cons.mp hbefore
        simpa using depthAfter_comma h
      | cons first before =>
        obtain ⟨rfl, hrest⟩ := List.cons_prefix_cons.mp hbefore
        have := henclosed.commas before hrest
        rw [hcons _ .closing, hcons _ .opening]
        omega

/-- Items that keep within their parentheses lead from one depth to another, as they count. -/
theorem foldlM_depthAfter : items.foldlM depthAfter depth = .ok depth' ↔
    Enclosed depth items ∧ items.count .closing + depth' = depth + items.count .opening := by
  induction items generalizing depth with
  | nil =>
    have : (pure depth : Except ParseError ℕ) = .ok depth' ↔ depth = depth' :=
      ⟨Except.ok.inj, congrArg Except.ok⟩
    simp [List.foldlM_nil, this, enclosed_nil, eq_comm]
  | cons item items ih =>
    rw [List.foldlM_cons]
    constructor
    · intro h
      obtain ⟨between, hitem, hrest⟩ := bind_eq_ok h
      obtain ⟨henclosed, hcounts⟩ := ih.mp hrest
      have hcount := count_of_depthAfter hitem
      refine ⟨(enclosed_cons hitem).mpr henclosed, ?_⟩
      rw [← List.singleton_append, List.count_append, List.count_append]
      omega
    · rintro ⟨henclosed, hcounts⟩
      obtain ⟨between, hitem⟩ := exists_depthAfter henclosed
      have hcount := count_of_depthAfter hitem
      rw [← List.singleton_append, List.count_append, List.count_append] at hcounts
      rw [hitem]
      exact ih.mpr ⟨(enclosed_cons hitem).mp henclosed, by omega⟩

/-! ### What the parentheses and commas of a text allow -/

/-- Whether an item is a parenthesis or a comma. -/
def Item.isBracket : Item → Bool
  | opening | closing | comma => true
  | _ => false

theorem depthAfter_of_not_bracket (h : item.isBracket = false) :
    depthAfter depth item = .ok depth := by
  cases item with
  | opening | closing | comma => cases h
  | _ => rfl

/-- Other items have no part in the depth. -/
theorem foldlM_depthAfter_filter (items : List Item) (depth : ℕ) :
    (items.filter Item.isBracket).foldlM depthAfter depth = items.foldlM depthAfter depth := by
  induction items generalizing depth with
  | nil => rfl
  | cons item items ih =>
    rw [List.foldlM_cons]
    cases hitem : item.isBracket with
    | true =>
      rw [List.filter_cons_of_pos hitem, List.foldlM_cons]
      exact bind_congr ih
    | false =>
      rw [List.filter_cons_of_neg (by simp [hitem]), depthAfter_of_not_bracket hitem, ih]
      rfl

/-- Balanced items: no part from the start closes more parentheses than it opens, every comma stands
within one, and all of them are closed. -/
def Balanced (items : List Item) : Prop :=
  Enclosed 0 items ∧ items.count .closing = items.count .opening

/-- The first place where items do not keep within their parentheses is this item, after balanced
ones. -/
def BreaksAt (item : Item) (items : List Item) : Prop :=
  ∃ before after, items = before ++ item :: after ∧ Balanced before

/-- How the depths of items end: no parenthesis may be left open. -/
def closedAfter (items : List Item) (depth : ℕ) : Except ParseError Unit :=
  items.foldlM depthAfter depth >>= fun depth =>
    if depth = 0 then .ok () else .error .mismatchedParentheses

theorem depth_of_depthAfter_error (h : depthAfter depth item = .error error) : depth = 0 := by
  cases item with
  | closing | comma =>
    cases depth with
    | zero => rfl
    | succ depth => cases h
  | _ => cases h

/-- The depths of items end with an error at the first item that causes it at depth zero. -/
theorem foldlM_depthAfter_eq_error (h : ∀ i, depthAfter 0 i = .error error ↔ i = item) :
    items.foldlM depthAfter 0 = .error error ↔ BreaksAt item items := by
  rw [foldlM_eq_error]
  constructor
  · rintro ⟨before, stopped, after, between, rfl, hbefore, hstopped⟩
    obtain rfl := depth_of_depthAfter_error hstopped
    obtain rfl := (h stopped).mp hstopped
    obtain ⟨henclosed, hcount⟩ := foldlM_depthAfter.mp hbefore
    exact ⟨before, after, rfl, henclosed, by omega⟩
  · rintro ⟨before, after, rfl, henclosed, hcount⟩
    exact ⟨before, item, after, 0, rfl, foldlM_depthAfter.mpr ⟨henclosed, by omega⟩, (h item).mpr rfl⟩

theorem depthAfter_eq_misplacedComma (i : Item) :
    depthAfter 0 i = .error .misplacedComma ↔ i = .comma := by
  cases i <;> simp [depthAfter]

theorem depthAfter_eq_mismatched (i : Item) :
    depthAfter 0 i = .error .mismatchedParentheses ↔ i = .closing := by
  cases i <;> simp [depthAfter]

theorem closedAfter_eq_ok : closedAfter items 0 = .ok () ↔ Balanced items := by
  have hend (depth : ℕ) : (if depth = 0 then .ok () else .error .mismatchedParentheses :
      Except ParseError Unit) = .ok () ↔ depth = 0 := by
    split <;> simp_all
  constructor
  · intro h
    obtain ⟨depth, hdepth, hzero⟩ := bind_eq_ok h
    obtain rfl := (hend depth).mp hzero
    obtain ⟨henclosed, hcount⟩ := foldlM_depthAfter.mp hdepth
    exact ⟨henclosed, by omega⟩
  · rintro ⟨henclosed, hcount⟩
    have hzero : items.foldlM depthAfter 0 = .ok 0 := foldlM_depthAfter.mpr ⟨henclosed, by omega⟩
    rw [closedAfter, hzero]
    rfl

theorem closedAfter_eq_misplacedComma :
    closedAfter items 0 = .error .misplacedComma ↔ BreaksAt .comma items := by
  rw [← foldlM_depthAfter_eq_error depthAfter_eq_misplacedComma, closedAfter]
  cases items.foldlM depthAfter 0 with
  | error error => simp [bind, Except.bind]
  | ok depth =>
    change (if depth = 0 then _ else _) = _ ↔ _
    split <;> simp

theorem closedAfter_eq_mismatched : closedAfter items 0 = .error .mismatchedParentheses ↔
    BreaksAt .closing items ∨ Enclosed 0 items ∧ items.count .closing < items.count .opening := by
  rw [← foldlM_depthAfter_eq_error depthAfter_eq_mismatched, closedAfter]
  cases hdepth : items.foldlM depthAfter 0 with
  | error error =>
    have hopen : ¬(Enclosed 0 items ∧ items.count .closing < items.count .opening) := by
      rintro ⟨henclosed, hcount⟩
      have hok := foldlM_depthAfter.mpr
        ⟨henclosed, show _ + (items.count .opening - items.count .closing) = 0 + _ by omega⟩
      rw [hdepth] at hok
      cases hok
    rw [or_iff_left hopen]
    simp [bind, Except.bind]
  | ok depth =>
    obtain ⟨henclosed, hcount⟩ := foldlM_depthAfter.mp hdepth
    change (if depth = 0 then _ else _) = _ ↔ _
    by_cases hzero : depth = 0
    · simp [hzero, henclosed]; omega
    · simp [hzero, henclosed]; omega

end Items

/-! ### Conversions -/

section Conversions

variable {stack tokens : List Token} {previous : Option Item} {s s' : Text} {tokens' : List Token}

/-- The items of tokens. -/
def itemsOf (tokens : List Token) : List Item := tokens.map Token.item

theorem Refused.depth {token : Token} {error : ParseError} (h : Refused stack token error)
    (hplain : token.item ≠ .negation) : depthAfter (depthOf stack) token.item = .error error := by
  cases h with
  | comma h | closing h => rw [depthOf_of_inside h]; rfl
  | negation => exact absurd rfl hplain

/-- A conversion ends as the depths of its items do. -/
theorem toPostfixFrom_closedAfter (hplain : ∀ t ∈ tokens, t.item ≠ .negation) :
    (toPostfixFrom stack previous tokens).map (fun _ => ()) =
      closedAfter (itemsOf tokens) (depthOf stack) := by
  -- By induction on the tokens: the open parentheses that wait count the depth.
  induction tokens generalizing stack previous with
  | nil =>
    change _ = if depthOf stack = 0 then _ else _
    rw [toPostfixFrom]
    by_cases hinside : ∀ t ∈ stack, t.isInside = true
    · rw [if_pos (List.all_eq_true.mpr hinside), if_pos (depthOf_of_inside hinside)]
      rfl
    · have hdepth : depthOf stack ≠ 0 := by
        intro hzero
        refine hinside fun t ht => ?_
        have := List.countP_eq_zero.mp hzero t ht
        simpa [Token.isInside] using this
      rw [if_neg (mt List.all_eq_true.mp hinside), if_neg hdepth]
      rfl
  | cons token tokens ih =>
    obtain ⟨htoken, htokens⟩ := List.forall_mem_cons.mp hplain
    rw [itemsOf, List.map_cons, closedAfter, List.foldlM_cons]
    rcases step_or_refused stack previous token with ⟨out, stack', hstep⟩ | ⟨error, hrefused⟩
    · rw [hstep.toPostfixFrom_cons, hstep.depth]
      refine Eq.trans ?_ (@ih stack' (some token.item) htokens)
      cases toPostfixFrom stack' (some token.item) tokens <;> rfl
    · rw [hrefused.toPostfixFrom_cons, hrefused.depth htoken]
      rfl

theorem closedAfter_filter (items : List Item) (depth : ℕ) :
    closedAfter (items.filter Item.isBracket) depth = closedAfter items depth := by
  rw [closedAfter, foldlM_depthAfter_filter, closedAfter]

theorem closedAfter_of_scan (h : scan s = .ok tokens) :
    (toPostfix tokens).map (fun _ => ()) = closedAfter (itemsOf tokens) 0 :=
  toPostfixFrom_closedAfter (scanned_of_scanFrom h).item_ne_negation

theorem map_unit_eq_error {ε α : Type} {r : Except ε α} {error : ε} :
    r.map (fun _ => ()) = .error error ↔ r = .error error := by
  constructor
  · exact map_eq_error
  · rintro rfl
    rfl

/-- The tokens have no postfix form, for a reason in these words. -/
def FailsWith (tokens : List Token) (words : Text) : Prop :=
  ∃ error, toPostfix tokens = .error error ∧ error.message = words

theorem ParseError.message_injective : Function.Injective ParseError.message := by
  intro error error' h
  cases error <;> cases error' <;> revert h <;> decide

theorem failsWith_message (error : ParseError) :
    FailsWith tokens error.message ↔ toPostfix tokens = .error error := by
  constructor
  · rintro ⟨other, hfails, hwords⟩
    rw [hfails, ParseError.message_injective hwords]
  · exact fun h => ⟨error, h, rfl⟩

/-- The tokens of a text have a postfix form just if they are balanced.  Otherwise the first place
where they do not keep within their parentheses, or a parenthesis that is left open, tells why, and
no other item makes any difference. -/
theorem toPostfix_brackets (h : scan s = .ok tokens) :
    ((∃ output, toPostfix tokens = .ok output) ↔ Balanced (itemsOf tokens)) ∧
    (FailsWith tokens "misplaced comma" ↔ BreaksAt .comma (itemsOf tokens)) ∧
    (FailsWith tokens "mismatched parentheses" ↔ BreaksAt .closing (itemsOf tokens) ∨
      Enclosed 0 (itemsOf tokens) ∧
        (itemsOf tokens).count .closing < (itemsOf tokens).count .opening) ∧
    (Balanced (itemsOf tokens) ∨ FailsWith tokens "misplaced comma" ∨
      FailsWith tokens "mismatched parentheses") ∧
    ∀ s' tokens', scan s' = .ok tokens' →
      (itemsOf tokens').filter Item.isBracket = (itemsOf tokens).filter Item.isBracket →
      (toPostfix tokens').map (fun _ => ()) = (toPostfix tokens).map fun _ => () := by
  have hends := closedAfter_of_scan h
  have hbalanced : (∃ output, toPostfix tokens = .ok output) ↔ Balanced (itemsOf tokens) := by
    rw [← closedAfter_eq_ok, ← hends]
    cases toPostfix tokens <;> simp [Except.map]
  refine ⟨hbalanced, ?_, ?_, ?_, fun s' tokens' h' hsame => ?_⟩
  · rw [← closedAfter_eq_misplacedComma, ← hends, map_unit_eq_error]
    exact failsWith_message .misplacedComma
  · rw [← closedAfter_eq_mismatched, ← hends, map_unit_eq_error]
    exact failsWith_message .mismatchedParentheses
  · cases hresult : toPostfix tokens with
    | ok output => exact .inl (hbalanced.mp ⟨output, hresult⟩)
    | error error =>
      cases error with
      | misplacedComma => exact .inr (.inl ⟨_, hresult, rfl⟩)
      | mismatchedParentheses => exact .inr (.inr ⟨_, hresult, rfl⟩)
      | unexpectedToken =>
        obtain ⟨t, ht, hitem⟩ := negation_mem_of_unexpectedToken hresult
        exact absurd hitem ((scanned_of_scanFrom h).item_ne_negation t ht)
  · rw [hends, closedAfter_of_scan h', ← closedAfter_filter (itemsOf tokens'), hsame,
      closedAfter_filter]

/-- The comma after the group is found before the parenthesis that is closed too often, with operands
or without. -/
theorem toPostfix_brackets_comma : ∃ tokens tokens', scan "max(1,2),3)" = .ok tokens ∧
    scan "(,)+,!)" = .ok tokens' ∧
    (itemsOf tokens').filter Item.isBracket = (itemsOf tokens).filter Item.isBracket ∧
    FailsWith tokens "misplaced comma" ∧
    (toPostfix tokens').map (fun _ => ()) = (toPostfix tokens).map fun _ => () := by
  have hscan : scan "max(1,2),3)" = .ok [⟨.name "max".toList, 0⟩, ⟨.opening, 3⟩, ⟨.number 1, 4⟩,
      ⟨.comma, 5⟩, ⟨.number 2, 6⟩, ⟨.closing, 7⟩, ⟨.comma, 8⟩, ⟨.number 3, 9⟩, ⟨.closing, 10⟩] := by
    decide +kernel
  have hscan' : scan "(,)+,!)" = .ok [⟨.opening, 0⟩, ⟨.comma, 1⟩, ⟨.closing, 2⟩,
      ⟨.operator .add, 3⟩, ⟨.comma, 4⟩, ⟨.suffix .factorial, 5⟩, ⟨.closing, 6⟩] := by
    decide +kernel
  obtain ⟨-, hcomma, -, -, hsame⟩ := toPostfix_brackets hscan
  have hbefore : closedAfter [.name "max".toList, .opening, .number 1, .comma, .number 2,
      .closing] 0 = .ok () := rfl
  exact ⟨_, _, hscan, hscan', rfl, hcomma.mpr ⟨_, _, rfl, closedAfter_eq_ok.mp hbefore⟩,
    hsame _ _ hscan' rfl⟩

end Conversions

end Reckoner
