import Mathlib.Data.List.Find
import Reckoner.Proofs.Phrase.BareCalls
import Reckoner.Proofs.Phrase.Percentages
import Reckoner.Proofs.Phrase.Spelling

/-! Spoken chains.  A chain is made of numbers and of phrases that stand for signs, and the rules are
applied to all of it, one after the other.  None of them joins words of two neighbours (`Rule.fits`,
which is decided for each rule and for the words that the rules before it have left), so the words of a
chain are turned item by item, and what the rules leave is the signs and the numbers in their order. -/

namespace Reckoner

/-- A word of digits and points. -/
def IsNumeral (n : Text) : Prop := n ≠ [] ∧ ∀ c ∈ n, isNumeral c = true

instance (n : Text) : Decidable (IsNumeral n) :=
  inferInstanceAs (Decidable (n ≠ [] ∧ ∀ c ∈ n, isNumeral c = true))

/-- What an item of a chain is in words: a number, or one of the entries of a table. -/
def IsCell (table : List (List Text)) (cell : List Text) : Prop :=
  cell ∈ table ∨ ∃ n, cell = [n] ∧ IsNumeral n

section Numerals

variable {n : Text}

theorem IsNumeral.isSmall (h : IsNumeral n) : ∀ c ∈ n, IsSmall c := fun c hc =>
  isSmall_of_isNumeral (h.2 c hc)

/-- No word of a rule stands in front of digits and points. -/
theorem not_prefix_of_isNumeral {rule : Rule} (hrule : rule.Spelled) {spelling : List Text}
    (hspelling : spelling ∈ rule.spellings) {word t : Text} (hword : word ∈ spelling)
    (ht : ∀ c ∈ t, isNumeral c = true) : ¬word <+: t := by
  intro hstart
  obtain ⟨c, word, rfl⟩ := List.exists_cons_of_ne_nil (hrule.solid spelling hspelling word hword).ne_nil
  have hlower := hrule.lower spelling hspelling (c :: word) hword c rfl
  have hc := ht c (hstart.mem (.head _))
  rw [isNumeral_of_isAlpha (Bool.or_eq_true_iff.mpr (.inr hlower))] at hc
  cases hc

variable {rule : Rule} (hrule : rule.Spelled) (hn : IsNumeral n)
include hrule hn

theorem IsNumeral.isTidy : rule.isTidy n = true := by
  obtain ⟨hne, hn⟩ := hn
  obtain ⟨c, n, rfl⟩ := List.exists_cons_of_ne_nil hne
  rw [Rule.isTidy, Bool.and_eq_true, Bool.not_eq_true', List.all_eq_true]
  constructor
  · cases hfinds : findsFrom rule.starts (some c) n with
    | false => rfl
    | true =>
      obtain ⟨before, t, ht, hstarts⟩ := exists_of_findsFrom hfinds
      rw [Rule.starts] at hstarts
      split at hstarts
      case isFalse => cases hstarts
      case isTrue h =>
        obtain ⟨spelling, hspelling, hany⟩ := List.any_eq_true.mp (Bool.and_eq_true_iff.mp h).2
        obtain ⟨word, hword, hwith⟩ := (Option.any_eq_true _ _).mp hany
        obtain ⟨rest, hrest⟩ := Option.isSome_iff_exists.mp hwith
        exact absurd ⟨rest, (Text.after?_eq_some.mp hrest).symm⟩ (not_prefix_of_isNumeral hrule
          hspelling (List.mem_of_mem_head? hword) fun d hd => hn d (.tail _ (ht.mem hd)))
  · intro spelling hspelling
    rw [Option.all_eq_true]
    intro word hword
    have hnone : Text.after? word (c :: n) = none := by
      cases hafter : Text.after? word (c :: n) with
      | none => rfl
      | some rest =>
        exact absurd ⟨rest, (Text.after?_eq_some.mp hafter).symm⟩
          (not_prefix_of_isNumeral hrule hspelling (List.mem_of_mem_getLast? hword) hn)
    rw [hnone]
    rfl

theorem IsNumeral.not_mem {spelling : List Text} (hspelling : spelling ∈ rule.spellings) :
    n ∉ spelling := fun hmem =>
  not_prefix_of_isNumeral hrule hspelling hmem hn.2 List.prefix_rfl

/-- A rule leaves a number alone. -/
theorem IsNumeral.turn_eq : rule.turn [n] = [n] := by
  refine Rule.turn_of_none (List.find?_eq_none.mpr fun spelling hspelling hstart => ?_)
  obtain ⟨word, words, rfl⟩ := List.exists_cons_of_ne_nil (hrule.ne_nil spelling hspelling)
  obtain ⟨rfl, -⟩ := List.cons_prefix_cons.mp (List.isPrefixOf_iff_prefix.mp hstart)
  exact hn.not_mem hrule hspelling (.head _)

end Numerals

namespace Rule

/-- Whether a rule turns items of a table, and numbers, one by one: their words are tidy, and no
spelling of the rule goes on from the end of one item to the start of another. -/
def fits (rule : Rule) (table : List (List Text)) : Bool :=
  table.all fun cell =>
    (cell.all fun word => rule.isTidy word && word.all fun c => decide (IsSmall c)) &&
      cell.tails.all fun rear => rear.isEmpty || rule.spellings.all fun spelling =>
        !rear.isPrefixOf spelling || spelling[rear.length]?.all fun word =>
          table.all fun next => next.head? != some word

variable {rule : Rule} {table : List (List Text)} {x y : List Text}

/-- Words are turned in two parts if no spelling goes on from the first part to the second. -/
theorem turn_append (h : ∀ rear, rear <:+ x → rear ≠ [] → ∀ spelling ∈ rule.spellings,
    spelling <+: rear ++ y → spelling <+: rear) :
    rule.turn (x ++ y) = rule.turn x ++ rule.turn y := by
  suffices hskip : ∀ skipped ≤ x.length, rule.turnFrom skipped (x ++ y) =
      rule.turnFrom skipped x ++ rule.turn y from hskip 0 (Nat.zero_le _)
  induction x with
  | nil =>
    intro skipped hskipped
    obtain rfl := Nat.le_zero.mp hskipped
    rfl
  | cons w x ih =>
    have ih := ih fun rear hrear => h rear (hrear.trans (List.suffix_cons w x))
    rintro (_ | skipped) hskipped
    · have hfind : rule.spellings.find? (·.isPrefixOf (w :: x ++ y)) =
          rule.spellings.find? (·.isPrefixOf (w :: x)) := List.find?_congr fun spelling hspelling => by
        rw [Bool.eq_iff_iff, List.isPrefixOf_iff_prefix, List.isPrefixOf_iff_prefix]
        exact ⟨h _ List.suffix_rfl (List.cons_ne_nil _ _) spelling hspelling,
          fun hstart => hstart.trans (List.prefix_append _ y)⟩
      rw [List.cons_append] at hfind ⊢
      rw [turnFrom, turnFrom, hfind]
      cases hspelling : rule.spellings.find? (·.isPrefixOf (w :: x)) with
      | none => simp only [ih 0 (Nat.zero_le _), List.cons_append]
      | some spelling =>
        have hstart : spelling <+: w :: x := by simpa using List.find?_some hspelling
        have hlength : spelling.length - 1 ≤ x.length := Nat.sub_le_of_le_add hstart.length_le
        simp only [ih _ hlength, List.append_assoc]
    · exact ih skipped (Nat.le_of_succ_le_succ hskipped)

section Table

variable {cell rear spelling : List Text} {cells : List (List Text)}

theorem isSmall_of_isCell (hfits : rule.fits table = true) (hcell : IsCell table cell) :
    ∀ word ∈ cell, ∀ c ∈ word, IsSmall c := by
  rcases hcell with hcell | ⟨n, rfl, hn⟩
  · intro word hword c hc
    have hcheck := (Bool.and_eq_true_iff.mp (List.all_eq_true.mp hfits cell hcell)).1
    have hcheck := (Bool.and_eq_true_iff.mp (List.all_eq_true.mp hcheck word hword)).2
    exact of_decide_eq_true (List.all_eq_true.mp hcheck c hc)
  · rintro _ (_ | ⟨_, hnil⟩)
    · exact hn.isSmall
    · cases hnil

variable (hrule : rule.Spelled) (hfits : rule.fits table = true)
include hrule hfits

/-- No spelling of a rule that fits goes on from an item to the next one. -/
theorem prefix_of_fits (hcell : IsCell table cell) (hcells : ∀ next ∈ cells, IsCell table next)
    (hrear : rear <:+ cell) (hne : rear ≠ []) (hspelling : spelling ∈ rule.spellings)
    (h : spelling <+: rear ++ cells.flatten) : spelling <+: rear := by
  by_contra hnot
  obtain ⟨more, rfl⟩ : rear <+: spelling := by
    refine List.prefix_of_prefix_length_le (List.prefix_append rear _) h (Nat.le_of_lt ?_)
    by_contra hlength
    exact hnot (List.prefix_of_prefix_length_le h (List.prefix_append rear _) (Nat.le_of_not_lt hlength))
  obtain ⟨word, more, rfl⟩ : ∃ word words, more = word :: words := by
    refine List.exists_cons_of_ne_nil ?_
    rintro rfl
    exact hnot (by simp)
  obtain ⟨rest, hrest⟩ := (List.prefix_append_right_inj rear).mp h
  -- The word behind the end of the item is the first of one of the next items.
  obtain ⟨next, hnext, hhead⟩ : ∃ next ∈ cells, next.head? = some word := by
    have := congrArg List.head? hrest
    rw [List.head?_flatten] at this
    exact List.exists_of_findSome?_eq_some this.symm
  rcases hcell with hcell | ⟨n, rfl, hn⟩
  · rcases hcells next hnext with hnext | ⟨n, rfl, hn⟩
    · have hcheck := (Bool.and_eq_true_iff.mp (List.all_eq_true.mp hfits cell hcell)).2
      have hcheck := List.all_eq_true.mp hcheck rear ((List.mem_tails _ _).mpr hrear)
      rw [List.isEmpty_eq_false_iff.mpr hne, Bool.false_or] at hcheck
      have hcheck := List.all_eq_true.mp hcheck _ hspelling
      have hstart : rear.isPrefixOf (rear ++ word :: more) = true :=
        List.isPrefixOf_iff_prefix.mpr (List.prefix_append rear _)
      rw [hstart, Bool.not_true, Bool.false_or, List.getElem?_append_right le_rfl, Nat.sub_self,
        List.getElem?_cons_zero, Option.all_some] at hcheck
      simpa [hhead] using List.all_eq_true.mp hcheck next hnext
    · obtain rfl := Option.some.inj hhead
      exact hn.not_mem hrule hspelling (by simp)
  · rcases List.suffix_cons_iff.mp hrear with rfl | hrear
    · exact hn.not_mem hrule hspelling (by simp)
    · exact hne (List.suffix_nil.mp hrear)

/-- A rule that fits turns the words of items item by item. -/
theorem turn_flatten (hcells : ∀ cell ∈ cells, IsCell table cell) :
    rule.turn cells.flatten = (cells.map rule.turn).flatten := by
  induction cells with
  | nil => rfl
  | cons cell cells ih =>
    obtain ⟨hcell, hcells⟩ := List.forall_mem_cons.mp hcells
    rw [List.flatten_cons, List.map_cons, List.flatten_cons, ← ih hcells]
    exact turn_append fun rear hrear hne spelling hspelling =>
      prefix_of_fits hrule hfits hcell hcells hrear hne hspelling

theorem isTidy_of_isCell (hcell : IsCell table cell) : ∀ word ∈ cell, rule.isTidy word = true := by
  rcases hcell with hcell | ⟨n, rfl, hn⟩
  · intro word hword
    have hcheck := (Bool.and_eq_true_iff.mp (List.all_eq_true.mp hfits cell hcell)).1
    exact (Bool.and_eq_true_iff.mp (List.all_eq_true.mp hcheck word hword)).1
  · rintro _ (_ | ⟨_, hnil⟩)
    · exact hn.isTidy hrule
    · cases hnil

end Table

theorem isCell_turn (hrule : rule.Spelled) {cell : List Text} (h : IsCell table cell) :
    IsCell (table.map rule.turn) (rule.turn cell) := by
  rcases h with h | ⟨n, rfl, hn⟩
  · exact .inl (List.mem_map_of_mem h)
  · exact .inr ⟨n, hn.turn_eq hrule, hn⟩

end Rule

/-- The words of an item after rules. -/
def settled (rules : List Rule) (cell : List Text) : List Text :=
  rules.foldl (fun words rule => rule.turn words) cell

/-- Whether rules, one after the other, turn items of a table one by one. -/
def fluent : List Rule → List (List Text) → Bool
  | [], _ => true
  | rule :: rules, table => rule.fits table && fluent rules (table.map rule.turn)

theorem applyRules_singleton (rule : Rule) (s : Text) : applyRules [rule] s = rule.apply s := rfl

/-- The rules turn the words of items item by item. -/
theorem words_applyRules {rules : List Rule} {table cells : List (List Text)} {s : Text}
    (hrules : ∀ rule ∈ rules, rule.Spelled) (hfluent : fluent rules table = true)
    (hcells : ∀ cell ∈ cells, IsCell table cell) (hwords : s.words = cells.flatten) :
    (applyRules rules s).words = (cells.map (settled rules)).flatten := by
  induction rules generalizing s table cells with
  | nil =>
    rw [show settled [] = id from rfl, List.map_id]
    exact hwords
  | cons rule rules ih =>
    obtain ⟨hrule, hrules⟩ := List.forall_mem_cons.mp hrules
    obtain ⟨hfits, hfluent⟩ := Bool.and_eq_true_iff.mp hfluent
    have hof : ∀ word ∈ s.words, ∃ cell ∈ cells, word ∈ cell := fun word hword => by
      rw [hwords] at hword
      exact List.mem_flatten.mp hword
    have hsmall : ∀ c ∈ s, IsSmall c := Text.forall_mem_of_words (fun _ => isSmall_of_isBlank)
      fun word hword => by
        obtain ⟨cell, hcell, hword⟩ := hof word hword
        exact Rule.isSmall_of_isCell hfits (hcells cell hcell) word hword
    have htidy : ∀ word ∈ s.words, rule.isTidy word = true := fun word hword => by
      obtain ⟨cell, hcell, hword⟩ := hof word hword
      exact Rule.isTidy_of_isCell hrule hfits (hcells cell hcell) word hword
    have happly : (rule.apply s).words = (cells.map rule.turn).flatten := by
      rw [Rule.words_apply hrule hsmall htidy, hwords, Rule.turn_flatten hrule hfits hcells]
    have hturned : ∀ cell ∈ cells.map rule.turn, IsCell (table.map rule.turn) cell :=
      List.forall_mem_map.mpr fun cell hcell => Rule.isCell_turn hrule (hcells cell hcell)
    rw [applyRules, List.foldl_cons]
    exact (ih hrules hfluent hturned happly).trans (by rw [List.map_map]; rfl)

/-! ### Quiet texts -/

/-- Whether a word keeps the signs around it as they are: it has no letter that the readers of
percentages and of open roots look for, and no function's name is its end. -/
def isQuiet (word : Text) : Bool :=
  (word.all fun c => decide (IsSmall c) && c != 'f' && c != 'q') &&
    Function.all.all fun f => !f.name.isSuffixOf word

theorem IsNumeral.isQuiet {n : Text} (h : IsNumeral n) : isQuiet n = true := by
  rw [Reckoner.isQuiet, Bool.and_eq_true, List.all_eq_true, List.all_eq_true]
  constructor
  · intro c hc
    have hnumeral := h.2 c hc
    have hne : c ≠ 'f' ∧ c ≠ 'q' := by
      constructor
      all_goals
        rintro rfl
        cases hnumeral
    simp [h.isSmall c hc, hne]
  · intro f _
    obtain ⟨a, name, hname⟩ := List.exists_cons_of_ne_nil (name_ne_nil f)
    rw [Bool.not_eq_true', ← Bool.not_eq_true, List.isSuffixOf_iff_suffix]
    intro hsuffix
    have hc := h.2 a (hsuffix.mem (hname ▸ .head _))
    rw [isNumeral_of_isAlpha (Bool.or_eq_true_iff.mpr (.inr (isLower_name f a (hname ▸ .head _))))] at hc
    cases hc

/-- In small letters a bare call starts with a function's name and white space behind it. -/
theorem exists_name_of_bareCall {before : Option Char} {s : Text} {found : Found}
    (hs : ∀ c ∈ s, IsSmall c) (h : bareCall before s = some found) :
    ∃ (f : Function) (rest : Text), s = f.name ++ rest ∧ ∀ c ∈ rest.head?, isBlank c = true := by
  obtain ⟨f, word, gap, n, rest, rfl, hname, -, hne, hgap, -⟩ :=
    bareCall_of_plain (fun c hc => (hs c hc).1) h
  rw [List.map_congr_left fun c hc => (hs c (List.mem_append_left _ hc)).2, List.map_id'] at hname
  refine ⟨f, gap ++ (n ++ rest), by rw [hname], ?_⟩
  obtain ⟨c, gap, rfl⟩ := List.exists_cons_of_ne_nil hne
  rintro _ ⟨⟩
  exact hgap c (.head _)

section Quiet

variable {s : Text} (h : ∀ word ∈ s.words, isQuiet word = true)
include h

theorem isSmall_of_quiet : ∀ c ∈ s, IsSmall c ∧ c ≠ 'f' ∧ c ≠ 'q' := by
  refine Text.forall_mem_of_words (fun c hc => ⟨isSmall_of_isBlank hc, ?_⟩) fun word hword c hc => ?_
  · constructor
    all_goals
      rintro rfl
      cases hc
  · have hall := (Bool.and_eq_true_iff.mp (h word hword)).1
    simpa [and_assoc] using List.all_eq_true.mp hall c hc

/-- Neither a percentage of a number nor an open root is found. -/
theorem expandSigns_of_quiet : expandSigns s = s := by
  have hsmall := isSmall_of_quiet h
  have hpercentage : substitute percentage s = s := substitute_eq_self fun before t ht => by
    cases hfound : percentage before t with
    | none => rfl
    | some found =>
      obtain ⟨n, r, u, m, rest, rfl, -, hof, -⟩ := percentage_eq_some.mp hfound
      obtain ⟨c, hc, hmeets⟩ := hof.exists_letter
      obtain ⟨hc, hf, -⟩ := hsmall c (ht.mem (List.mem_append_right n hc))
      exact absurd ((meetsLetter_iff hc).mp hmeets) hf
  have hopenRoot : substitute openRoot s = s := substitute_eq_self fun before t ht => by
    cases hfound : openRoot before t with
    | none => rfl
    | some found =>
      obtain ⟨word, blanks, n, rest, rfl, hword, -⟩ := openRoot_eq_some hfound
      obtain ⟨c, hc, hmeets⟩ := exists_of_mem_forall₂ hword (by decide : 'q' ∈ "sqrt".toList)
      obtain ⟨hc, -, hq⟩ := hsmall c (ht.mem (List.mem_append_left _ hc))
      exact absurd ((meetsLetter_iff hc).mp hmeets) hq
  rw [expandSigns, hpercentage, hopenRoot]

/-- Where no function's name ends a word, no bare call is found. -/
theorem substitute_bareCall_of_quiet : substitute bareCall s = s := by
  refine substitute_eq_self fun before t ht => ?_
  cases hcall : bareCall before t with
  | none => rfl
  | some found =>
    exfalso
    obtain ⟨f, rest, rfl, hrest⟩ :=
      exists_name_of_bareCall (fun c hc => (isSmall_of_quiet h c (ht.mem hc)).1) hcall
    obtain ⟨a, rfl⟩ := ht
    have hsolid : IsSolid f.name := by cases f <;> decide
    obtain ⟨word, hword, hsuffix⟩ := Text.exists_word_of_append hsolid hrest (a := a)
    have hquiet := List.all_eq_true.mp (Bool.and_eq_true_iff.mp (h word hword)).2 f
      (by cases f <;> decide)
    rw [List.isSuffixOf_iff_suffix.mpr hsuffix] at hquiet
    cases hquiet

end Quiet

/-! ### Chains -/

/-- The phrases of spoken arithmetic and the signs that they stand for. -/
def spokenSigns : List (String × String) :=
  [("plus", "+"), ("add", "+"), ("minus", "-"), ("subtract", "-"),
    ("times", "*"), ("into", "*"), ("multiply", "*"), ("multiply by", "*"), ("multiplied", "*"),
    ("multiplied by", "*"), ("over", "/"), ("divide", "/"), ("divided by", "/"),
    ("power of", "^"), ("to the power of", "^"), ("squared", "^2"), ("cubed", "^3"),
    ("percent", "%"), ("per cent", "%")]

/-- The words that may stand in front of a chain. -/
def openings : List String := ["", "what is", "what's", "calculate", "compute"]

/-- An item of a chain in words, and what is written for it: a number is written as it is, and a phrase
as its sign. -/
inductive Said : List Text → Text → Prop
  | number {n : Text} (h : IsNumeral n) : Said [n] n
  | phrase {words sign : String} (h : (words, sign) ∈ spokenSigns) : Said (Text.words words) sign

/-- What an opening or an item is in words, before the rules. -/
def spokenTable : List (List Text) :=
  (openings.map fun opening => Text.words opening.toList) ++
    spokenSigns.map fun entry => Text.words entry.1.toList

/-- What an opening or an item is in words, after the rules. -/
def signTable : List (List Text) :=
  (openings.map fun opening => Text.words opening.toList) ++
    spokenSigns.map fun entry => [entry.2.toList]

theorem fluent_spokenTable : fluent Rule.all spokenTable = true := by decide +kernel

theorem fluent_signTable : fluent [fillers] signTable = true := by decide +kernel

theorem isQuiet_of_mem_signTable : ∀ cell ∈ signTable, ∀ word ∈ cell, isQuiet word = true := by
  decide +kernel

theorem settled_of_mem_openings : ∀ opening ∈ openings,
    settled Rule.all (Text.words opening) = Text.words opening ∧
      settled [fillers] (Text.words opening) = [] := by
  decide +kernel

theorem settled_of_mem_spokenSigns : ∀ entry ∈ spokenSigns,
    settled Rule.all (Text.words entry.1) = [entry.2.toList] ∧
      settled [fillers] [entry.2.toList] = [entry.2.toList] := by
  decide +kernel

theorem isSmall_of_mem_spokenTable : ∀ cell ∈ spokenTable, ∀ word ∈ cell, ∀ c ∈ word,
    IsSmall c ∧ c ≠ '?' := by
  decide +kernel

section Requests

variable {body tail : Text} {words : List Text}

theorem isPlain_toLower (c : Char) : IsPlain c.toLower ↔ IsPlain c := by
  have := apply_toLower (fun c => decide (IsPlain c)) (by decide) c
  simpa using this

/-- The words of a request are those that are said, in small letters; question marks behind them play no
part. -/
theorem words_plainRequest (hbody : (Text.words body).map (List.map Char.toLower) = words)
    (hwords : ∀ word ∈ words, ∀ c ∈ word, IsSmall c ∧ c ≠ '?')
    (htail : ∀ c ∈ tail, isBlank c = true ∨ c = '?') :
    (plainRequest (body ++ tail)).words = words := by
  have hlowered : Text.words (body.map Char.toLower) = words := by
    rw [Text.words_map isBlank_toLower, hbody]
  have hsmall : ∀ c ∈ body.map Char.toLower, IsSmall c ∧ c ≠ '?' :=
    Text.forall_mem_of_words (fun c hc => ⟨isSmall_of_isBlank hc, by rintro rfl; cases hc⟩)
      (by rwa [hlowered])
  have hplain : ∀ c ∈ body ++ tail, IsPlain c := by
    refine List.forall_mem_append.mpr ⟨fun c hc => ?_, fun c hc => ?_⟩
    · exact (isPlain_toLower c).mp (hsmall _ (List.mem_map_of_mem hc)).1.1
    · rcases htail c hc with h | rfl
      · exact isPlain_of_isBlank h
      · decide
  have hmarks : (body.map Char.toLower).filter (· != '?') = body.map Char.toLower :=
    List.filter_eq_self.mpr fun c hc => by simpa using (hsmall c hc).2
  have hblanks : ∀ c ∈ (tail.map Char.toLower).filter (· != '?'), isBlank c = true := by
    intro c hc
    obtain ⟨hc, hne⟩ := List.mem_filter.mp hc
    obtain ⟨d, hd, rfl⟩ := List.mem_map.mp hc
    rcases htail d hd with h | rfl
    · rw [isBlank_toLower, h]
    · cases hne
  rw [plainRequest, lower_eq_map hplain, List.map_append, List.filter_append, hmarks,
    Text.words_stripped, Text.words_append_right hblanks, hlowered]

end Requests

section Items

variable {cell : List Text} {sign : Text}

theorem Said.isCell (h : Said cell sign) : IsCell spokenTable cell := by
  cases h with
  | number h => exact .inr ⟨_, rfl, h⟩
  | phrase h => exact .inl (List.mem_append_right _ (List.mem_map.mpr ⟨_, h, rfl⟩))

theorem Said.isCell_sign (h : Said cell sign) : IsCell signTable [sign] := by
  cases h with
  | number h => exact .inr ⟨_, rfl, h⟩
  | phrase h => exact .inl (List.mem_append_right _ (List.mem_map.mpr ⟨_, h, rfl⟩))

theorem IsCell.forall_mem {p : Text → Prop} {table : List (List Text)} (h : IsCell table cell)
    (htable : ∀ cell ∈ table, ∀ word ∈ cell, p word) (hnumeral : ∀ n, IsNumeral n → p n) :
    ∀ word ∈ cell, p word := by
  rcases h with h | ⟨n, rfl, hn⟩
  · exact htable cell h
  · exact List.forall_mem_singleton.mpr (hnumeral n hn)

theorem IsNumeral.settled_eq {n : Text} (h : IsNumeral n) {rules : List Rule}
    (hrules : ∀ rule ∈ rules, rule.Spelled) : settled rules [n] = [n] := by
  induction rules with
  | nil => rfl
  | cons rule rules ih =>
    obtain ⟨hrule, hrules⟩ := List.forall_mem_cons.mp hrules
    rw [settled, List.foldl_cons, h.turn_eq hrule]
    exact ih hrules

theorem Said.settled_eq (h : Said cell sign) : settled Rule.all cell = [sign] ∧
    settled [fillers] [sign] = [sign] := by
  cases h with
  | number h =>
    exact ⟨h.settled_eq fun rule hrule => Rule.spelled_of_mem rule (.tail _ hrule),
      h.settled_eq fun rule hrule => Rule.spelled_of_mem rule (by
        obtain rfl := List.mem_singleton.mp hrule
        exact .head _)⟩
  | @phrase words sign h => exact settled_of_mem_spokenSigns (words, sign) h

end Items

/-- A spoken chain, with an opening and question marks or without, is read as its numbers and signs, with
one space between neighbours. -/
theorem spokenExpression_chain {opening : String} (hopening : opening ∈ openings)
    {items : List (List Text × Text)} (hitems : ∀ item ∈ items, Said item.1 item.2) {body tail : Text}
    (hbody : (Text.words body).map (List.map Char.toLower) =
      Text.words opening ++ (items.map Prod.fst).flatten)
    (htail : ∀ c ∈ tail, isBlank c = true ∨ c = '?') :
    spokenExpression (body ++ tail) = Text.joined " " (items.map Prod.snd) := by
  have hcells : ∀ cell ∈ Text.words opening :: items.map Prod.fst, IsCell spokenTable cell :=
    List.forall_mem_cons.mpr ⟨.inl (List.mem_append_left _ (List.mem_map_of_mem hopening)),
      List.forall_mem_map.mpr fun item hitem => (hitems item hitem).isCell⟩
  have hsigns : ∀ cell ∈ Text.words opening :: items.map fun item => [item.2],
      IsCell signTable cell :=
    List.forall_mem_cons.mpr ⟨.inl (List.mem_append_left _ (List.mem_map_of_mem hopening)),
      List.forall_mem_map.mpr fun item hitem => (hitems item hitem).isCell_sign⟩
  have hplain : (plainRequest (body ++ tail)).words =
      (Text.words opening :: items.map Prod.fst).flatten := by
    refine words_plainRequest hbody (fun word hword => ?_) htail
    obtain ⟨cell, hcell, hword⟩ := List.mem_flatten.mp hword
    refine (hcells cell hcell).forall_mem isSmall_of_mem_spokenTable (fun n hn c hc => ?_) word hword
    exact ⟨hn.isSmall c hc, by rintro rfl; cases hn.2 _ hc⟩
  have hrules : (applyRules Rule.all (plainRequest (body ++ tail))).words =
      (Text.words opening :: items.map fun item => [item.2]).flatten := by
    have hsettled : items.map (settled Rule.all ∘ Prod.fst) = items.map fun item => [item.2] :=
      List.map_congr_left fun item hitem => by
        rw [Function.comp_apply, (hitems item hitem).settled_eq.1]
    rw [words_applyRules (fun rule hrule => Rule.spelled_of_mem rule (.tail _ hrule))
      fluent_spokenTable hcells hplain, List.map_cons, (settled_of_mem_openings _ hopening).1,
      List.map_map, hsettled]
  have hquiet : ∀ word ∈ (applyRules Rule.all (plainRequest (body ++ tail))).words,
      isQuiet word = true := by
    rw [hrules]
    intro word hword
    obtain ⟨cell, hcell, hword⟩ := List.mem_flatten.mp hword
    exact (hsigns cell hcell).forall_mem isQuiet_of_mem_signTable (fun n hn => hn.isQuiet) word hword
  have hfillers : (fillers.apply (applyRules Rule.all (plainRequest (body ++ tail)))).words =
      items.map Prod.snd := by
    have hsettled : (items.map fun item => settled [fillers] [item.2]) =
        items.map fun item => [item.2] :=
      List.map_congr_left fun item hitem => by rw [(hitems item hitem).settled_eq.2]
    have hsingles : (items.map fun item => [item.2]).flatten = items.map Prod.snd := by
      rw [← List.flatMap_def, ← List.map_eq_flatMap]
    have hwords := words_applyRules
      (List.forall_mem_singleton.mpr (Rule.spelled_of_mem fillers (.head _)))
      fluent_signTable hsigns hrules
    rwa [applyRules_singleton, List.map_cons, (settled_of_mem_openings _ hopening).2, List.map_map,
      Function.comp_def, hsettled, List.flatten_cons, List.nil_append, hsingles] at hwords
  rw [spokenExpression, expandSigns_of_quiet hquiet, substitute_bareCall_of_quiet hquiet, hfillers]

theorem spokenExpression_chain_mixed :
    spokenExpression "What's 12.5 MULTIPLIED  By 3 squared\tto the\npower of 2 Per Cent minus .5 ?" =
      "12.5 * 3 ^2 ^ 2 % - .5".toList := by
  let items : List (List Text × Text) := [(["12.5"], "12.5"), (Text.words "multiplied by", "*"),
    (["3"], "3"), (Text.words "squared", "^2"), (Text.words "to the power of", "^"), (["2"], "2"),
    (Text.words "per cent", "%"), (Text.words "minus", "-"), ([".5"], ".5")]
  have hitems : ∀ item ∈ items, Said item.1 item.2 := by
    simp only [items, List.forall_mem_cons]
    exact ⟨.number (by decide), .phrase (by decide), .number (by decide), .phrase (by decide),
      .phrase (by decide), .number (by decide), .phrase (by decide), .phrase (by decide),
      .number (by decide), List.forall_mem_nil _⟩
  have hbody : (Text.words "What's 12.5 MULTIPLIED  By 3 squared\tto the\npower of 2 Per Cent minus .5").map
      (List.map Char.toLower) = Text.words "what's" ++ (items.map Prod.fst).flatten := by
    decide +kernel
  have htail : ∀ c ∈ " ?".toList, isBlank c = true ∨ c = '?' := by decide
  have hchain := spokenExpression_chain (by decide) hitems hbody htail
  have hsigns : Text.joined " " (items.map Prod.snd) = "12.5 * 3 ^2 ^ 2 % - .5".toList := by
    decide +kernel
  rwa [hsigns] at hchain

end Reckoner
