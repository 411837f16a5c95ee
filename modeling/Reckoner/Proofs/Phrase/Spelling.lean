import Mathlib.Data.List.Infix
import Reckoner.Proofs.Phrase.Accepted
import Reckoner.Proofs.Text.Words

/-! Rules and the words of a text.  In a text of small letters, digits and signs a rule turns the words
of its phrases into the words of its sign and leaves the others alone, wherever the white space between
them is: `words_apply`.  It takes that no phrase is found in a part of a word, which `Rule.isTidy` tells
of a word. -/

namespace Reckoner

instance {w : Text} : Decidable (IsSolid w) :=
  decidable_of_iff (w ≠ [] ∧ ∀ c ∈ w, isBlank c = false)
    ⟨fun h => ⟨h.1, h.2⟩, fun h => ⟨h.ne_nil, h.solid⟩⟩

/-- A plain character that is no capital. -/
def IsSmall (c : Char) : Prop := IsPlain c ∧ c.toLower = c

instance (c : Char) : Decidable (IsSmall c) :=
  inferInstanceAs (Decidable (IsPlain c ∧ c.toLower = c))

/-! ### Small texts -/

section Small

variable {a c : Char} {s word : Text}

theorem isSmall_of_isBlank (h : isBlank c = true) : IsSmall c :=
  ⟨isPlain_of_isBlank h, toLower_of_isCaseless (isCaseless_of_isBlank h)⟩

theorem isSmall_of_isNumeral (h : isNumeral c = true) : IsSmall c :=
  ⟨isPlain_of_isNumeral h, toLower_of_isNumeral h⟩

theorem meetsLetter_iff (h : IsSmall c) : meetsLetter a c = true ↔ c = a := by
  constructor
  · intro hmeets
    cases ha : a.isLower with
    | true => exact h.2.symm.trans (letter_of_meetsLetter ha h.1 hmeets).1
    | false =>
      have hnot : a ≠ 'i' ∧ a ≠ 'k' ∧ a ≠ 's' := by
        refine ⟨?_, ?_, ?_⟩
        all_goals
          rintro rfl
          cases ha
      simpa [meetsLetter, ha, hnot] using hmeets
  · rintro rfl
    simp [meetsLetter]

/-- Small characters meet a word only if they are its letters. -/
theorem afterWord?_of_small (h : ∀ c ∈ s, IsSmall c) (word : Text) :
    s.afterWord? word = Text.after? word s := by
  induction word generalizing s with
  | nil => cases s <;> rfl
  | cons a word ih =>
    cases s with
    | nil => rfl
    | cons c s =>
      obtain ⟨hc, hs⟩ := List.forall_mem_cons.mp h
      rw [Text.afterWord?, Text.after?, ih hs]
      simp only [meetsLetter_iff hc, eq_comm]

theorem isWord_of_isBlank (h : isBlank c = true) : isWord c = false := by
  rcases isPlain_of_isBlank h with hc | hc
  · have hall : ∀ n < 128, isBlank (Char.ofNat n) = true → isWord (Char.ofNat n) = false := by
      decide +kernel
    have := hall c.toNat hc
    rw [Char.ofNat_toNat] at this
    exact this h
  · exact forall_codes (p := fun c => isBlank c = true → isWord c = false) (by decide +kernel) hc h

end Small

/-! ### Spellings -/

/-- The letters of a word of a phrase. -/
def Piece.letters? : Piece → Option Text
  | .word letters => some letters
  | _ => none

namespace Phrase

/-- The phrase whose words these are, with a gap between neighbours. -/
def spelled (words : List Text) : Phrase := (words.map Piece.word).intersperse .gap

/-- The ways to write a phrase in words: two words with a loose gap between them are also one word. -/
def spellings : Phrase → List (List Text)
  | [.word a, .looseGap, .word b] => [[a, b], [a ++ b]]
  | phrase => [phrase.filterMap Piece.letters?]

/-- Whether all gaps of a phrase are gaps between neighbours, or it is two words with a loose gap. -/
def isSpelled : Phrase → Bool
  | [.word _, .looseGap, .word _] => true
  | phrase => decide (phrase = spelled (phrase.filterMap Piece.letters?))

end Phrase

/-- The ways to write the phrases of a rule in words. -/
def Rule.spellings (rule : Rule) : List (List Text) := rule.phrases.flatMap Phrase.spellings

/-- A rule whose phrases are written in words that start with a small letter. -/
structure Rule.Spelled (rule : Rule) : Prop where
  phrases : ∀ phrase ∈ rule.phrases, phrase.isSpelled = true
  ne_nil : ∀ spelling ∈ rule.spellings, spelling ≠ []
  solid : ∀ spelling ∈ rule.spellings, ∀ word ∈ spelling, IsSolid word
  lower : ∀ spelling ∈ rule.spellings, ∀ word ∈ spelling, ∀ c ∈ word.head?, c.isLower = true

theorem Rule.spelled_of_mem : ∀ rule ∈ fillers :: Rule.all, rule.Spelled := fun rule hrule =>
  ⟨(by decide +kernel : ∀ rule ∈ fillers :: Rule.all, ∀ phrase ∈ rule.phrases,
      phrase.isSpelled = true) rule hrule,
    (by decide +kernel : ∀ rule ∈ fillers :: Rule.all, ∀ spelling ∈ rule.spellings,
      spelling ≠ []) rule hrule,
    (by decide +kernel : ∀ rule ∈ fillers :: Rule.all, ∀ spelling ∈ rule.spellings,
      ∀ word ∈ spelling, IsSolid word) rule hrule,
    (by decide +kernel : ∀ rule ∈ fillers :: Rule.all, ∀ spelling ∈ rule.spellings,
      ∀ word ∈ spelling, ∀ c ∈ word.head?, c.isLower = true) rule hrule⟩

theorem Text.after?_append (a b s : Text) :
    Text.after? (a ++ b) s = (Text.after? a s).bind (Text.after? b) := by
  induction a generalizing s with
  | nil => rfl
  | cons d a ih =>
    cases s with
    | nil => rfl
    | cons c s =>
      rw [List.cons_append, Text.after?, Text.after?, ih]
      split <;> rfl

namespace Phrase

variable {s t rest : Text} {a b : Text} {spelling words : List Text} {phrase : Phrase}

theorem spelled_cons_cons (a b : Text) (words : List Text) :
    spelled (a :: b :: words) = .word a :: .gap :: spelled (b :: words) := rfl

theorem after?_word (hs : ∀ c ∈ s, IsSmall c) (word : Text) (phrase : Phrase) :
    after? (.word word :: phrase) s = (Text.after? word s).bind phrase.after? := by
  rw [after?, afterWord?_of_small hs]
  cases Text.after? word s <;> rfl

/-- A gap in front of a word is there if white space is. -/
theorem after?_gap (phrase : Phrase) {c : Char} (hc : isBlank c = true) (s : Text) :
    after? (.gap :: phrase) (c :: s) = phrase.after? (Text.skipBlanks s) := by
  rw [after?, if_pos hc]

theorem after?_gap_eq_none (phrase : Phrase) (h : ∀ c ∈ s.head?, isBlank c = false) :
    after? (.gap :: phrase) s = none := by
  cases s with
  | nil => rfl
  | cons c s => rw [after?, h c rfl]; rfl

/-- A loose gap between two words is a gap, or the two are one word. -/
theorem after?_looseGap (hs : ∀ c ∈ s, IsSmall c) (hb : IsSolid b) :
    (after? [.word a, .looseGap, .word b] s = after? (spelled [a, b]) s ∧
        after? (spelled [a ++ b]) s = none) ∨
      (after? [.word a, .looseGap, .word b] s = after? (spelled [a ++ b]) s ∧
        after? (spelled [a, b]) s = none) := by
  have hjoined : after? (spelled [a ++ b]) s = (Text.after? a s).bind (Text.after? b) := by
    rw [show spelled [a ++ b] = [.word (a ++ b)] from rfl, after?_word hs, Text.after?_append]
    cases (Text.after? a s).bind (Text.after? b) <;> rfl
  rw [hjoined, show spelled [a, b] = [.word a, .gap, .word b] from rfl, after?_word hs, after?_word hs]
  cases hr : Text.after? a s with
  | none => exact .inl ⟨rfl, rfl⟩
  | some rest =>
    have hword : ∀ t, t <:+ rest → after? [.word b] t = Text.after? b t := by
      intro t ht
      have hsmall : ∀ c ∈ t, IsSmall c := fun c hc => hs c (by
        rw [Text.after?_eq_some.mp hr]
        exact List.mem_append_right a (ht.mem hc))
      rw [after?_word hsmall]
      cases Text.after? b t <;> rfl
    simp only [Option.bind_some]
    rw [show after? [.looseGap, .word b] rest = after? [.word b] rest.skipBlanks from rfl,
      hword _ (skipBlanks_suffix rest)]
    cases rest with
    | nil => exact .inr ⟨rfl, rfl⟩
    | cons c rest =>
      cases hc : isBlank c with
      | true =>
        refine .inl ⟨?_, ?_⟩
        · rw [after?_gap _ hc, hword _ ((skipBlanks_suffix rest).trans (List.suffix_cons c rest)),
            Text.skipBlanks, List.dropWhile_cons_of_pos hc]
          rfl
        · obtain ⟨d, b, rfl⟩ := List.exists_cons_of_ne_nil hb.ne_nil
          have hd : d ≠ c := by
            rintro rfl
            rw [hb.solid d (.head _)] at hc
            cases hc
          rw [Text.after?, if_neg hd]
      | false =>
        refine .inr ⟨?_, after?_gap_eq_none _ (by rintro _ ⟨⟩; exact hc)⟩
        rw [Text.skipBlanks, List.dropWhile_cons_of_neg (by simp [hc])]

/-- A phrase is at the start of a small text if one of the ways to write it is. -/
theorem whole?_eq_findSome? (hs : ∀ c ∈ s, IsSmall c) (hphrase : phrase.isSpelled = true)
    (hsolid : ∀ spelling ∈ phrase.spellings, ∀ word ∈ spelling, IsSolid word) :
    phrase.whole? s = phrase.spellings.findSome? fun spelling => (spelled spelling).whole? s := by
  rw [isSpelled.eq_def] at hphrase
  split at hphrase
  case h_2 hloose =>
    rw [spellings.eq_def]
    split
    case h_1 => exact absurd rfl (hloose _ _)
    case h_2 => rw [List.findSome?_singleton, ← of_decide_eq_true hphrase]
  case h_1 a b =>
    have hb : IsSolid b := hsolid [a, b] (.head _) b (by simp)
    rw [spellings, List.findSome?_cons, List.findSome?_singleton]
    rcases after?_looseGap (a := a) hs hb with ⟨heq, hnone⟩ | ⟨heq, hnone⟩
    · simp only [whole?, heq, hnone]
      cases ((spelled [a, b]).after? s).filter endsWord <;> rfl
    · simp only [whole?, heq, hnone]
      rfl

theorem endsWord_of_blank (h : ∀ c ∈ rest.head?, isBlank c = true) : endsWord rest = true := by
  cases rest with
  | nil => rfl
  | cons c rest => rw [endsWord, isWord_of_isBlank (h c rfl)]; rfl

/-- A phrase of which the words are the first words of a small text is at its start. -/
theorem exists_after?_spelled (hne : spelling ≠ []) (hs : ∀ c ∈ s, IsSmall c)
    (hfirst : ∀ c ∈ s.head?, isBlank c = false) (h : s.words = spelling ++ words) :
    ∃ part rest, s = part ++ rest ∧ part ≠ [] ∧ (spelled spelling).after? s = some rest ∧
      rest.words = words ∧ ∀ c ∈ rest.head?, isBlank c = true := by
  induction spelling generalizing s with
  | nil => exact absurd rfl hne
  | cons a spelling ih =>
    obtain ⟨rest, rfl, ha, hrest, hwords⟩ := Text.exists_of_words_first h hfirst
    have hread : Text.after? a (a ++ rest) = some rest := Text.after?_eq_some.mpr rfl
    cases spelling with
    | nil =>
      refine ⟨a, rest, rfl, ha.ne_nil, ?_, hwords, hrest⟩
      rw [show spelled [a] = [.word a] from rfl, after?_word hs, hread]
      rfl
    | cons b spelling =>
      cases rest with
      | nil => cases hwords
      | cons c rest =>
        have hc := hrest c rfl
        obtain ⟨blanks, hskip, -⟩ := exists_skipBlanks rest
        rw [Text.words_cons_of_blank hc, ← Text.words_skipBlanks] at hwords
        have hsmall : ∀ d ∈ Text.skipBlanks rest, IsSmall d := fun d hd =>
          hs d (List.mem_append_right a (.tail _ ((skipBlanks_suffix rest).mem hd)))
        obtain ⟨part, more, hpart, -, hafter, hmore⟩ :
            ∃ part more, Text.skipBlanks rest = part ++ more ∧ _ :=
          ih (List.cons_ne_nil _ _) hsmall head?_dropWhile_eq_false hwords
        refine ⟨a ++ c :: (blanks ++ part), more, ?_, by simp, ?_, hmore⟩
        · rw [hskip, hpart]
          simp
        · rw [spelled_cons_cons, after?_word hs, hread, Option.bind_some, after?_gap _ hc, hafter]

/-- A phrase at the start of a small text is its first words, unless its last word is cut off from a
longer one. -/
theorem prefix_of_after? (hs : ∀ c ∈ s, IsSmall c) (hfirst : ∀ c ∈ s.head?, isBlank c = false)
    (hne : spelling ≠ []) (hsolid : ∀ word ∈ spelling, IsSolid word)
    (htidy : ∀ w ∈ s.words, ∀ a ∈ spelling.getLast?, ∀ u, w = a ++ u → endsWord u = true → u = [])
    (h : (spelled spelling).after? s = some rest) (hends : endsWord rest = true) :
    spelling <+: s.words := by
  induction spelling generalizing s with
  | nil => exact absurd rfl hne
  | cons a spelling ih =>
    obtain ⟨ha, hsolid⟩ := List.forall_mem_cons.mp hsolid
    cases spelling with
    | nil =>
      rw [show spelled [a] = [.word a] from rfl, after?_word hs, Option.bind_eq_some_iff] at h
      obtain ⟨r, hr, h⟩ := h
      obtain rfl := Option.some.inj h
      obtain rfl := Text.after?_eq_some.mp hr
      obtain ⟨u, rest, rfl, hrest, -, hwords⟩ := Text.exists_words_append ha r
      have hu : u = [] := by
        cases u with
        | nil => rfl
        | cons c u => exact htidy (a ++ c :: u) (hwords ▸ .head _) a rfl (c :: u) rfl hends
      rw [hwords, hu, List.append_nil]
      exact ⟨Text.words rest, rfl⟩
    | cons b spelling =>
      rw [spelled_cons_cons, after?_word hs, Option.bind_eq_some_iff] at h
      obtain ⟨r, hr, h⟩ := h
      obtain rfl := Text.after?_eq_some.mp hr
      cases r with
      | nil => cases h
      | cons c r =>
        cases hc : isBlank c with
        | false =>
          rw [after?_gap_eq_none _ (by rintro _ ⟨⟩; exact hc)] at h
          cases h
        | true =>
          rw [after?_gap _ hc] at h
          have hwords : Text.words (a ++ c :: r) = a :: Text.words (Text.skipBlanks r) := by
            rw [Text.words_cons ha (by rintro _ ⟨⟩; exact hc), Text.words_cons_of_blank hc,
              Text.words_skipBlanks]
          rw [hwords] at htidy ⊢
          have hsmall : ∀ d ∈ Text.skipBlanks r, IsSmall d := fun d hd =>
            hs d (List.mem_append_right a (.tail _ ((skipBlanks_suffix r).mem hd)))
          refine (List.prefix_cons_inj a).mpr (ih hsmall head?_dropWhile_eq_false
            (List.cons_ne_nil _ _) hsolid (fun w hw d hd => ?_) h)
          exact htidy w (.tail _ hw) d hd

end Phrase

/-! ### Rules -/

namespace Rule

/-- Finds the places at which the first word of a phrase of the rule is. -/
def starts (rule : Rule) : Reader := fun before s =>
  if startsWord before && rule.spellings.any fun spelling =>
      spelling.head?.any fun word => Text.startsWith word s
  then some ⟨[], 1⟩ else none

/-- Whether neither a phrase of the rule starts within a word nor one ends within it. -/
def isTidy (rule : Rule) : Text → Bool
  | [] => true
  | c :: w => !findsFrom rule.starts (some c) w && rule.spellings.all fun spelling =>
      spelling.getLast?.all fun word => (Text.after? word (c :: w)).all fun rest =>
        rest.isEmpty || !endsWord rest

/-- The words of a text after a rule, where the first `skipped` of them are part of what has been
replaced. -/
def turnFrom (rule : Rule) (skipped : ℕ) : List Text → List Text
  | [] => []
  | w :: words =>
    match skipped with
    | skipped + 1 => rule.turnFrom skipped words
    | 0 =>
      match rule.spellings.find? (·.isPrefixOf (w :: words)) with
      | some spelling => rule.sign.words ++ rule.turnFrom (spelling.length - 1) words
      | none => w :: rule.turnFrom 0 words

/-- The words of a text after a rule. -/
def turn (rule : Rule) (words : List Text) : List Text := rule.turnFrom 0 words

variable {rule : Rule} {before : Option Char} {c : Char} {s w rest : Text}
  {spelling words : List Text}

theorem turnFrom_eq_drop (rule : Rule) (skipped : ℕ) (words : List Text) :
    rule.turnFrom skipped words = rule.turn (words.drop skipped) := by
  induction words generalizing skipped with
  | nil => simp [turnFrom, turn]
  | cons w words ih =>
    cases skipped with
    | zero => rfl
    | succ skipped => rw [turnFrom, ih, List.drop_succ_cons]

theorem turn_of_found (h : rule.spellings.find? (·.isPrefixOf words) = some spelling)
    (hne : spelling ≠ []) :
    rule.turn words = rule.sign.words ++ rule.turn (words.drop spelling.length) := by
  obtain ⟨more, rfl⟩ : spelling <+: words := by simpa using List.find?_some h
  obtain ⟨w, spelling, rfl⟩ := List.exists_cons_of_ne_nil hne
  rw [List.cons_append] at h ⊢
  rw [turn, turnFrom]
  simp only [h, turnFrom_eq_drop]
  rfl

theorem turn_of_none (h : rule.spellings.find? (·.isPrefixOf (w :: words)) = none) :
    rule.turn (w :: words) = w :: rule.turn words := by
  rw [turn, turnFrom]
  simp only [h]
  rfl

theorem findSome?_flatMap {α β γ : Type} {f : α → Option γ} {g : α → List β} {h : β → Option γ}
    {l : List α} (hl : ∀ x ∈ l, f x = (g x).findSome? h) :
    l.findSome? f = (l.flatMap g).findSome? h := by
  induction l with
  | nil => rfl
  | cons x l ih =>
    obtain ⟨hx, hl⟩ := List.forall_mem_cons.mp hl
    rw [List.flatMap_cons, List.findSome?_append, List.findSome?_cons, hx, ih hl]
    cases (g x).findSome? h <;> rfl

theorem findSome?_eq_find? {α β : Type} {f : α → Option β} {p : α → Bool} {l : List α}
    (h : ∀ x ∈ l, (f x).isSome = p x) : l.findSome? f = (l.find? p).bind f := by
  induction l with
  | nil => rfl
  | cons x l ih =>
    obtain ⟨hx, hl⟩ := List.forall_mem_cons.mp h
    rw [List.findSome?_cons, List.find?_cons, ← hx]
    cases hf : f x with
    | none => exact ih hl
    | some _ => exact hf.symm

/-- What a rule reads of a small text is the first of its spellings that is there. -/
theorem reader_eq (hrule : rule.Spelled) (hs : ∀ c ∈ s, IsSmall c) (hbefore : startsWord before = true) :
    Phrase.reader rule.phrases rule.sign before s =
      (rule.spellings.findSome? fun spelling => (Phrase.spelled spelling).whole? s).map
        (Found.upTo rule.sign s) := by
  rw [Phrase.reader, if_pos hbefore, spellings, findSome?_flatMap fun phrase hphrase => ?_]
  exact Phrase.whole?_eq_findSome? hs (hrule.phrases phrase hphrase) fun spelling hspelling =>
    hrule.solid spelling (List.mem_flatMap.mpr ⟨phrase, hphrase, hspelling⟩)

/-- Where no word of a small text is cut off by a phrase, the phrases that are read at a word are those
whose words come next. -/
theorem reader_eq_find? (hrule : rule.Spelled) (hs : ∀ c ∈ s, IsSmall c)
    (hfirst : ∀ c ∈ s.head?, isBlank c = false) (htidy : ∀ w ∈ s.words, rule.isTidy w = true)
    (hbefore : startsWord before = true) :
    Phrase.reader rule.phrases rule.sign before s =
      ((rule.spellings.find? (·.isPrefixOf s.words)).bind fun spelling =>
        (Phrase.spelled spelling).whole? s).map (Found.upTo rule.sign s) := by
  rw [reader_eq hrule hs hbefore, findSome?_eq_find? fun spelling hspelling => ?_]
  have hne := hrule.ne_nil spelling hspelling
  rw [Bool.eq_iff_iff, List.isPrefixOf_iff_prefix]
  constructor
  · intro h
    obtain ⟨rest, hrest⟩ := Option.isSome_iff_exists.mp h
    obtain ⟨hafter, hends⟩ := Option.filter_eq_some_iff.mp hrest
    refine Phrase.prefix_of_after? hs hfirst hne (hrule.solid spelling hspelling)
      (fun w hw a ha u hu hends => ?_) hafter hends
    cases w with
    | nil => exact (List.append_eq_nil_iff.mp hu.symm).2
    | cons c w =>
      have hlast := (Bool.and_eq_true_iff.mp (htidy _ hw)).2
      have := List.all_eq_true.mp hlast spelling hspelling
      rw [Option.mem_def.mp ha, Option.all_some, Text.after?_eq_some.mpr hu, Option.all_some,
        hends] at this
      simpa using this
  · rintro ⟨words, hwords⟩
    obtain ⟨part, rest, -, -, hafter, -, hrest⟩ :=
      Phrase.exists_after?_spelled hne hs hfirst hwords.symm
    rw [Phrase.whole?, hafter, Option.filter_some, Phrase.endsWord_of_blank hrest]
    rfl

/-- A rule finds nothing where the first words of its phrases are not. -/
theorem reader_eq_none (hrule : rule.Spelled) (hs : ∀ c ∈ s, IsSmall c)
    (h : ∀ spelling ∈ rule.spellings, ∀ word ∈ spelling.head?, ¬word <+: s) :
    Phrase.reader rule.phrases rule.sign before s = none := by
  cases hbefore : startsWord before with
  | false => rw [Phrase.reader, hbefore]; rfl
  | true =>
    rw [reader_eq hrule hs hbefore, Option.map_eq_none_iff, List.findSome?_eq_none_iff]
    intro spelling hspelling
    obtain ⟨word, words, rfl⟩ := List.exists_cons_of_ne_nil (hrule.ne_nil spelling hspelling)
    have hnone : Text.after? word s = none := by
      cases hafter : Text.after? word s with
      | none => rfl
      | some rest =>
        exact absurd ⟨rest, (Text.after?_eq_some.mp hafter).symm⟩ (h _ hspelling word rfl)
    have hphrase : ∃ phrase, Phrase.spelled (word :: words) = .word word :: phrase := by
      cases words with
      | nil => exact ⟨[], rfl⟩
      | cons => exact ⟨_, rfl⟩
    obtain ⟨phrase, hphrase⟩ := hphrase
    rw [Phrase.whole?, hphrase, Phrase.after?_word hs, hnone]
    rfl

/-- A rule finds nothing at white space. -/
theorem reader_of_isBlank (hrule : rule.Spelled) (hs : ∀ d ∈ c :: s, IsSmall d)
    (hc : isBlank c = true) : Phrase.reader rule.phrases rule.sign before (c :: s) = none := by
  refine reader_eq_none hrule hs fun spelling hspelling word hword hstart => ?_
  obtain ⟨hne, hsolid⟩ := hrule.solid spelling hspelling word (List.mem_of_mem_head? hword)
  obtain ⟨d, word, rfl⟩ := List.exists_cons_of_ne_nil hne
  obtain ⟨rfl, -⟩ := List.cons_prefix_cons.mp hstart
  rw [hsolid d (.head _)] at hc
  cases hc

/-- White space at the start of a text stays there. -/
theorem head?_substituteFrom_reader (hrule : rule.Spelled) (hs : ∀ d ∈ s, IsSmall d)
    (h : ∀ c ∈ s.head?, isBlank c = true) (before : Option Char) :
    ∀ c ∈ (substituteFrom (Phrase.reader rule.phrases rule.sign) 0 before s).head?,
      isBlank c = true := by
  cases s with
  | nil => rintro _ ⟨⟩
  | cons c s =>
    rw [(substituteFrom_none (reader_of_isBlank hrule hs (h c rfl))).1]
    rintro _ ⟨⟩
    exact h c rfl

/-- A rule finds nothing within a tidy word. -/
theorem substituteFrom_within (hrule : rule.Spelled) (hs : ∀ d ∈ c :: w ++ rest, IsSmall d)
    (hrest : ∀ d ∈ rest.head?, isBlank d = true) (htidy : rule.isTidy (c :: w) = true) :
    substituteFrom (Phrase.reader rule.phrases rule.sign) 0 (some c) (w ++ rest) =
      w ++ substituteFrom (Phrase.reader rule.phrases rule.sign) 0 (lastOr (some c) w) rest := by
  have hquiet : findsFrom rule.starts (some c) w = false := by
    simpa using (Bool.and_eq_true_iff.mp htidy).1
  refine substituteFrom_unfound (fun before d u hu hnone => ?_) hquiet
  have hsmall : ∀ e ∈ d :: u ++ rest, IsSmall e := fun e he => hs e (by
    rcases List.mem_append.mp he with he | he
    · exact List.mem_append_left _ (.tail _ (hu.mem he))
    · exact List.mem_append_right _ he)
  cases hbefore : startsWord before with
  | false => rw [Phrase.reader, hbefore]; rfl
  | true =>
    rw [starts, hbefore, Bool.true_and] at hnone
    refine reader_eq_none hrule hsmall fun spelling hspelling word hword hstart => ?_
    have hsolid := (hrule.solid spelling hspelling word (List.mem_of_mem_head? hword)).solid
    obtain ⟨more, hmore⟩ := Text.prefix_of_prefix_append (s := d :: u) hsolid hrest hstart
    have hstarts : rule.spellings.any (fun spelling =>
        spelling.head?.any fun word => Text.startsWith word (d :: u)) = true := by
      refine List.any_eq_true.mpr ⟨spelling, hspelling, ?_⟩
      rw [Option.mem_def.mp hword, Option.any_some, ← hmore]
      exact Text.startsWith_append word more
    rw [if_pos hstarts] at hnone
    cases hnone

/-- One step of a rule along a small text: the words of a phrase, or one word, are read up to white
space. -/
theorem exists_step (hrule : rule.Spelled) (hs : ∀ d ∈ c :: s, IsSmall d)
    (htidy : ∀ w ∈ Text.words (c :: s), rule.isTidy w = true) (hc : isBlank c = false)
    (hbefore : startsWord before = true) : ∃ (out rest : Text) (last : Option Char), rest <:+ s ∧
      (∀ d ∈ rest.head?, isBlank d = true) ∧ rest.words <:+ Text.words (c :: s) ∧
      substituteFrom (Phrase.reader rule.phrases rule.sign) 0 before (c :: s) =
        out ++ substituteFrom (Phrase.reader rule.phrases rule.sign) 0 last rest ∧
      rule.turn (Text.words (c :: s)) = out.words ++ rule.turn rest.words := by
  have hfirst : ∀ d ∈ (c :: s).head?, isBlank d = false := by
    rintro _ ⟨⟩
    exact hc
  have hread := reader_eq_find? hrule hs hfirst htidy hbefore
  cases hfind : rule.spellings.find? (·.isPrefixOf (Text.words (c :: s))) with
  | some spelling =>
    have hne := hrule.ne_nil spelling (List.mem_of_find?_eq_some hfind)
    obtain ⟨words, hwords⟩ : spelling <+: Text.words (c :: s) := by simpa using List.find?_some hfind
    obtain ⟨part, rest, hpart, hnonempty, hafter, hmore, hrest⟩ :=
      Phrase.exists_after?_spelled hne hs hfirst hwords.symm
    have hwhole : (Phrase.spelled spelling).whole? (c :: s) = some rest := by
      rw [Phrase.whole?, hafter, Option.filter_some, Phrase.endsWord_of_blank hrest]
      rfl
    rw [hfind, Option.bind_some, hwhole, Option.map_some] at hread
    refine ⟨rule.sign, rest, lastOr before part, ?_, hrest, ?_,
      (substituteFrom_found hpart hnonempty hread).1, ?_⟩
    · obtain ⟨d, part, rfl⟩ := List.exists_cons_of_ne_nil hnonempty
      obtain ⟨-, rfl⟩ := List.cons.inj hpart
      exact List.suffix_append part rest
    · rw [hmore, ← hwords]
      exact List.suffix_append spelling words
    · rw [turn_of_found hfind hne, ← hwords, List.drop_left, hmore]
  | none =>
    rw [hfind, Option.bind_none, Option.map_none] at hread
    cases hwords : Text.words (c :: s) with
    | nil =>
      rw [Text.words_eq_nil_iff.mp hwords c (.head _)] at hc
      cases hc
    | cons w words =>
      obtain ⟨rest, hsplit, hw, hrest, rfl⟩ := Text.exists_of_words_first hwords hfirst
      obtain ⟨d, w, rfl⟩ := List.exists_cons_of_ne_nil hw.ne_nil
      obtain ⟨rfl, htail⟩ := List.cons.inj hsplit
      obtain rfl : s = w ++ rest := htail
      rw [hwords] at hfind htidy
      refine ⟨c :: w, rest, lastOr (some c) w, List.suffix_append w rest, hrest,
        List.suffix_cons _ _, ?_, ?_⟩
      · rw [(substituteFrom_none hread).1,
          substituteFrom_within hrule hs hrest (htidy _ (.head _)), List.cons_append]
      · rw [turn_of_none hfind, Text.words_of_isSolid hw, List.singleton_append]

/-- A rule turns the words of a small text whose words are tidy. -/
theorem words_substituteFrom (hrule : rule.Spelled) (hs : ∀ c ∈ s, IsSmall c)
    (htidy : ∀ w ∈ s.words, rule.isTidy w = true)
    (hbefore : startsWord before = true ∨ ∀ c ∈ s.head?, isBlank c = true) :
    Text.words (substituteFrom (Phrase.reader rule.phrases rule.sign) 0 before s) =
      rule.turn s.words := by
  -- What is found takes several words at once, so the induction is on the length of the text.
  induction hlength : s.length using Nat.strong_induction_on generalizing s before with
  | _ length ih =>
  subst hlength
  cases s with
  | nil => rfl
  | cons c s =>
    cases hc : isBlank c with
    | true =>
      rw [(substituteFrom_none (reader_of_isBlank hrule hs hc)).1, Text.words_cons_of_blank hc,
        Text.words_cons_of_blank hc]
      rw [Text.words_cons_of_blank hc] at htidy
      refine ih s.length (Nat.lt_succ_self _) (fun d hd => hs d (.tail _ hd)) htidy (.inl ?_) rfl
      rw [startsWord, isWord_of_isBlank hc]
      rfl
    | false =>
      have hstarts : startsWord before = true := hbefore.resolve_right fun h => by
        rw [h c rfl] at hc
        cases hc
      obtain ⟨out, rest, last, hsuffix, hrest, hwords, hsubstitute, hturn⟩ :=
        exists_step hrule hs htidy hc hstarts
      have hsmall : ∀ d ∈ rest, IsSmall d := fun d hd => hs d (.tail _ (hsuffix.mem hd))
      rw [hsubstitute, hturn,
        Text.words_append (head?_substituteFrom_reader hrule hsmall hrest last),
        ih rest.length (Nat.lt_succ_of_le hsuffix.length_le) hsmall
          (fun w hw => htidy w (hwords.mem hw)) (.inr hrest) rfl]

/-- A rule turns the words of a small text whose words are tidy. -/
theorem words_apply (hrule : rule.Spelled) (hs : ∀ c ∈ s, IsSmall c)
    (htidy : ∀ w ∈ s.words, rule.isTidy w = true) : (rule.apply s).words = rule.turn s.words :=
  words_substituteFrom hrule hs htidy (.inl rfl)

end Rule

end Reckoner
