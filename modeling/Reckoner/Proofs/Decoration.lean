import Reckoner.Proofs.Phrase.Transparency

/-! What stands around an expression in an answer.  White space and blank lines in front of it, a label
and backticks on its line, the lines below it and a fence around all of this are taken off, and nothing
of the expression is: an answer that decorates an expression is read as that expression. -/

namespace Reckoner

/-- White space within a line. -/
def isPadding (c : Char) : Bool := isBlank c && !isLineEnd c

/-- A label: one of two words in some case and a colon, with white space around the colon or not. -/
structure Label where
  word : Text
  before : Text
  after : Text
  word_mem : word.map Char.toLower ∈ ["expression".toList, "answer".toList]
  padding : ∀ c ∈ before ++ after, isPadding c = true

def Label.text (label : Label) : Text := label.word ++ (label.before ++ ':' :: label.after)

/-- What stands around an expression: white space in front, blank lines included, a label or none, as
many backticks on its left as on its right, white space behind them, and lines without backticks. -/
structure Decoration where
  front : Text
  label : Option Label
  ticks : ℕ
  behind : Text
  below : Text
  isBlank_front : ∀ c ∈ front, isBlank c = true
  isPadding_behind : ∀ c ∈ behind, isPadding c = true
  isLineEnd_below : ∀ c ∈ below.head?, isLineEnd c = true
  tick_below : '\x60' ∉ below

/-- The text of an optional label. -/
def Decoration.labelText (d : Decoration) : Text := (d.label.map Label.text).getD []

/-- The text with `n` backticks on each side. -/
def ticked (n : ℕ) (e : Text) : Text :=
  List.replicate n '\x60' ++ (e ++ List.replicate n '\x60')

/-- The expression with its label and its backticks. -/
def Decoration.marked (d : Decoration) (e : Text) : Text := d.labelText ++ ticked d.ticks e

/-- An answer that decorates the expression `e`. -/
def Decoration.around (d : Decoration) (e : Text) : Text :=
  d.front ++ (d.marked e ++ (d.behind ++ d.below))

/-- A fence: a mark with a tag or none on a line of its own and a mark on a last line, with white space
around them. -/
structure Fence where
  front : Text
  tag : Text
  opening : Text
  closing : Text
  behind : Text
  isTag_tag : ∀ c ∈ tag, isTag c = true
  isBlank_front : ∀ c ∈ front, isBlank c = true
  isBlank_opening : ∀ c ∈ opening, isBlank c = true
  isBlank_closing : ∀ c ∈ closing, isBlank c = true
  isBlank_behind : ∀ c ∈ behind, isBlank c = true

/-- What stands between the two marks of a fence. -/
def Fence.inner (f : Fence) (content : Text) : Text :=
  f.opening ++ '\n' :: (content ++ '\n' :: f.closing)

/-- The content in a fence. -/
def Fence.around (f : Fence) (content : Text) : Text :=
  f.front ++ (fenceMark ++ (f.tag ++ (f.inner content ++ fenceMark)) ++ f.behind)

/-- An expression on a line of its own: it has neither white space at its ends nor a backtick. -/
structure IsLine (e : Text) : Prop where
  ne_nil : e ≠ []
  inline : ∀ c ∈ e, isLineEnd c = false
  first : ∀ c ∈ e.head?, isBlank c = false
  last : ∀ c ∈ e.getLast?, isBlank c = false
  tick : '\x60' ∉ e

/-! ### Labels -/

section Labels

variable {s rest word lead gap more : Text} {c : Char}

theorem meetsLetter_of_toLower : ∀ c : Char, c.toLower.isLower = true →
    meetsLetter c.toLower c = true :=
  forall_toLower (p := fun c d => d.isLower = true → meetsLetter d c = true)
    (fun c _ _ => by simp [meetsLetter]) (by decide)

theorem meets_of_map_toLower {w : Text} (h : ∀ a ∈ w.map Char.toLower, a.isLower = true) :
    List.Forall₂ (fun a c => meetsLetter a c = true) (w.map Char.toLower) w := by
  induction w with
  | nil => exact .nil
  | cons c w ih =>
    obtain ⟨hc, hw⟩ := List.forall_mem_cons.mp h
    exact .cons (meetsLetter_of_toLower c hc) (ih hw)

/-- The words of a label start with one of two letters. -/
theorem exists_cons_of_label
    (h : List.Forall₂ (fun a c => meetsLetter a c = true) "expression".toList word ∨
      List.Forall₂ (fun a c => meetsLetter a c = true) "answer".toList word) :
    ∃ c w, word = c :: w ∧ c ∈ "eEaA".toList := by
  rcases h with h | h
  · cases h with
    | cons hc _ =>
      refine ⟨_, _, rfl, ?_⟩
      rcases eq_of_meetsLetter (by decide) hc with rfl | rfl
      all_goals decide
  · cases h with
    | cons hc _ =>
      refine ⟨_, _, rfl, ?_⟩
      rcases eq_of_meetsLetter (by decide) hc with rfl | rfl
      all_goals decide

/-- What follows a label is all that is left. -/
theorem afterLabel?_of_meets (hlead : ∀ c ∈ lead, isBlank c = true)
    (hword : List.Forall₂ (fun a c => meetsLetter a c = true) "expression".toList word ∨
      List.Forall₂ (fun a c => meetsLetter a c = true) "answer".toList word)
    (hgap : ∀ c ∈ gap, isBlank c = true) :
    afterLabel? (lead ++ (word ++ (gap ++ ':' :: more))) = some (Text.skipBlanks more) := by
  have hskip : Text.skipBlanks (lead ++ (word ++ (gap ++ ':' :: more))) =
      word ++ (gap ++ ':' :: more) := by
    obtain ⟨c, w, rfl, hc⟩ := exists_cons_of_label hword
    refine (takeWhile_run hlead ?_).2
    rintro _ ⟨⟩
    have hall : ∀ d ∈ "eEaA".toList, isBlank d = false := by decide
    exact hall c hc
  have hcolon : Text.skipBlanks (gap ++ ':' :: more) = ':' :: more :=
    (takeWhile_run hgap (by rintro _ ⟨⟩; decide)).2
  have hread : ((word ++ (gap ++ ':' :: more)).afterWord? "expression").orElse
      (fun _ => (word ++ (gap ++ ':' :: more)).afterWord? "answer") = some (gap ++ ':' :: more) := by
    rcases hword with hword | hword
    · rw [afterWord?_eq_some.mpr ⟨word, rfl, hword⟩]
      rfl
    · rw [afterWord?_eq_some.mpr ⟨word, rfl, hword⟩]
      cases he : (word ++ (gap ++ ':' :: more)).afterWord? "expression" with
      | none => rfl
      | some _ =>
        -- The two words of labels start with different letters.
        obtain ⟨w, hw, hmeets⟩ := afterWord?_eq_some.mp he
        cases hmeets with
        | cons hc _ =>
          cases hword with
          | cons hd _ =>
            obtain ⟨rfl, -⟩ := List.cons.inj hw
            rcases eq_of_meetsLetter (by decide) hc with rfl | rfl
            all_goals cases hd
  rw [afterLabel?, hskip]
  simp only [hread, Option.bind_eq_bind, Option.bind_some, hcolon, afterSign?_eq_some.mpr rfl]
  rfl

/-- White space behind a text makes no label of what is none. -/
theorem afterLabel?_append_eq_none {blanks : Text} (hblanks : ∀ c ∈ blanks, isBlank c = true)
    (h : afterLabel? s = none) : afterLabel? (s ++ blanks) = none := by
  cases ha : afterLabel? (s ++ blanks) with
  | none => rfl
  | some rest =>
    obtain ⟨lead, word, gap, more, hs, hlead, hword, hgap, -⟩ := exists_of_afterLabel? ha
    have hs' : s ++ blanks = (lead ++ (word ++ gap)) ++ ':' :: more := by simp [hs]
    rcases List.append_eq_append_iff.mp hs' with ⟨t, -, ht⟩ | ⟨t, ht, htail⟩
    · have hcolon := hblanks ':' (by simp [ht])
      exact absurd hcolon (by decide)
    · cases t with
      | nil =>
        have hcolon := hblanks ':' (by rw [List.nil_append] at htail; simp [← htail])
        exact absurd hcolon (by decide)
      | cons d t =>
        obtain ⟨rfl, -⟩ := List.cons.inj htail
        have hlabel : afterLabel? (lead ++ (word ++ (gap ++ ':' :: t))) =
            some (Text.skipBlanks t) := afterLabel?_of_meets hlead hword hgap
        rw [ht, List.append_assoc, List.append_assoc, hlabel] at h
        cases h

namespace Label

variable (label : Label)

theorem meets : List.Forall₂ (fun a c => meetsLetter a c = true) "expression".toList label.word ∨
    List.Forall₂ (fun a c => meetsLetter a c = true) "answer".toList label.word := by
  have hmem := label.word_mem
  rw [List.mem_pair] at hmem
  refine hmem.imp (fun h => ?_) fun h => ?_
  all_goals
    rw [← h]
    refine meets_of_map_toLower ?_
    rw [h]
    decide

theorem isBlank_before : ∀ c ∈ label.before, isBlank c = true := fun c hc =>
  (Bool.and_eq_true_iff.mp (label.padding c (List.mem_append_left _ hc))).1

theorem isBlank_after : ∀ c ∈ label.after, isBlank c = true := fun c hc =>
  (Bool.and_eq_true_iff.mp (label.padding c (List.mem_append_right _ hc))).1

end Label

end Labels

/-! ### The line of the expression -/

section Lines

variable {e : Text} {c : Char} (d : Decoration)

theorem isBlank_of_isPadding (h : isPadding c = true) : isBlank c = true :=
  (Bool.and_eq_true_iff.mp h).1

theorem isLineEnd_of_isPadding (h : isPadding c = true) : isLineEnd c = false := by
  simpa using (Bool.and_eq_true_iff.mp h).2

theorem toNat_of_isLineEnd (h : isLineEnd c = true) : c.toNat < 32 ∨ 128 ≤ c.toNat := by
  simp only [isLineEnd, Bool.or_eq_true, Bool.and_eq_true, decide_eq_true_eq, beq_iff_eq] at h
  omega

theorem isLineEnd_of_isAlpha (h : c.isAlpha = true) : isLineEnd c = false := by
  rw [Bool.eq_false_iff]
  intro hc
  have := toNat_of_isAlpha h
  have := toNat_of_isLineEnd hc
  omega

theorem isLineEnd_of_mem_labelText (h : c ∈ d.labelText) : isLineEnd c = false := by
  rw [Decoration.labelText] at h
  cases hl : d.label with
  | none =>
    rw [hl] at h
    cases h
  | some label =>
    rw [hl, Option.map_some, Option.getD_some, Label.text, List.mem_append, List.mem_append,
      List.mem_cons] at h
    have hpadding := label.padding
    rw [List.forall_mem_append] at hpadding
    rcases h with h | h | rfl | h
    · have halpha : ∀ word ∈ ["expression".toList, "answer".toList], ∀ a ∈ word,
          a.isAlpha = true := by decide
      have := halpha _ label.word_mem _ (List.mem_map_of_mem h)
      exact isLineEnd_of_isAlpha (isAlpha_toLower c ▸ this)
    · exact isLineEnd_of_isPadding (hpadding.1 c h)
    · rfl
    · exact isLineEnd_of_isPadding (hpadding.2 c h)

namespace IsLine

variable (he : IsLine e)

include he

theorem exists_cons : ∃ c t, e = c :: t ∧ isBlank c = false := by
  obtain ⟨c, t, rfl⟩ := List.exists_cons_of_ne_nil he.ne_nil
  exact ⟨c, t, rfl, he.first c rfl⟩

theorem head?_ticked (n : ℕ) : ∀ c ∈ (ticked n e).head?, isBlank c = false := by
  cases n with
  | zero =>
    obtain ⟨c, t, rfl, hc⟩ := he.exists_cons
    rintro _ ⟨⟩
    exact hc
  | succ n =>
    rintro _ ⟨⟩
    decide

theorem getLast?_ticked (n : ℕ) : ∀ c ∈ (ticked n e).getLast?, isBlank c = false := by
  intro c hc
  cases n with
  | zero =>
    rw [ticked, List.replicate_zero, List.nil_append, List.append_nil] at hc
    exact he.last c hc
  | succ n =>
    rw [ticked, List.replicate_succ', ← List.append_assoc, ← List.append_assoc,
      List.getLast?_concat] at hc
    obtain rfl := Option.some.inj hc
    decide

theorem ticked_ne_nil (n : ℕ) : ticked n e ≠ [] := by
  simp [ticked, he.ne_nil]

theorem isLineEnd_ticked (n : ℕ) : ∀ c ∈ ticked n e, isLineEnd c = false := by
  have hticks : ∀ c ∈ List.replicate n '\x60', isLineEnd c = false := by
    intro c hc
    obtain rfl := List.eq_of_mem_replicate hc
    decide
  exact List.forall_mem_append.mpr ⟨hticks, List.forall_mem_append.mpr ⟨he.inline, hticks⟩⟩

theorem marked_ne_nil : d.marked e ≠ [] := by
  simp [Decoration.marked, he.ticked_ne_nil]

theorem head?_marked : ∀ c ∈ (d.marked e).head?, isBlank c = false := by
  rw [Decoration.marked, Decoration.labelText]
  cases d.label with
  | none => exact he.head?_ticked d.ticks
  | some label =>
    obtain ⟨c, w, hw, hc⟩ := exists_cons_of_label label.meets
    rw [Option.map_some, Option.getD_some, Label.text, hw]
    rintro _ ⟨⟩
    have hall : ∀ d ∈ "eEaA".toList, isBlank d = false := by decide
    exact hall c hc

theorem getLast?_marked : ∀ c ∈ (d.marked e).getLast?, isBlank c = false := by
  rw [Decoration.marked, List.getLast?_append_of_ne_nil _ (he.ticked_ne_nil d.ticks)]
  exact he.getLast?_ticked d.ticks

theorem isLineEnd_marked : ∀ c ∈ d.marked e, isLineEnd c = false :=
  List.forall_mem_append.mpr
    ⟨fun _ => isLineEnd_of_mem_labelText d, he.isLineEnd_ticked d.ticks⟩

/-- A label in front is read, and nothing else is taken for one. -/
theorem afterLabel?_marked (hlabel : d.label = none → d.ticks = 0 → afterLabel? e = none)
    {blanks : Text} (hblanks : ∀ c ∈ blanks, isBlank c = true) :
    (afterLabel? (d.marked e ++ blanks)).getD (d.marked e ++ blanks) = ticked d.ticks e ++ blanks := by
  cases hl : d.label with
  | some label =>
    have hmarked : d.marked e ++ blanks = [] ++ (label.word ++ (label.before ++
        ':' :: (label.after ++ (ticked d.ticks e ++ blanks)))) := by
      simp [Decoration.marked, Decoration.labelText, hl, Label.text]
    have hhead : ∀ c ∈ (ticked d.ticks e ++ blanks).head?, isBlank c = false := by
      rw [List.head?_append_of_ne_nil _ (he.ticked_ne_nil d.ticks)]
      exact he.head?_ticked d.ticks
    rw [hmarked, afterLabel?_of_meets (List.forall_mem_nil _) label.meets label.isBlank_before,
      Option.getD_some]
    exact (takeWhile_run label.isBlank_after hhead).2
  | none =>
    have hmarked : d.marked e = ticked d.ticks e := by
      simp [Decoration.marked, Decoration.labelText, hl]
    have hnone : afterLabel? (ticked d.ticks e ++ blanks) = none := by
      cases hn : d.ticks with
      | zero =>
        rw [ticked, List.replicate_zero, List.nil_append, List.append_nil]
        exact afterLabel?_append_eq_none hblanks (hlabel hl hn)
      | succ n =>
        cases ha : afterLabel? (ticked (n + 1) e ++ blanks) with
        | none => rfl
        | some rest =>
          -- A label starts with white space or a letter.
          obtain ⟨lead, word, gap, more, hs, hlead, hword, -, -⟩ := exists_of_afterLabel? ha
          obtain ⟨c, w, rfl, hc⟩ := exists_cons_of_label hword
          cases lead with
          | nil =>
            obtain ⟨rfl, -⟩ := List.cons.inj hs
            exact absurd hc (by decide)
          | cons d lead =>
            obtain ⟨rfl, -⟩ := List.cons.inj hs
            exact absurd (hlead _ (.head _)) (by decide)
    rw [hmarked, hnone, Option.getD_none]

theorem stripped_eq : e.stripped = e := trimmed_self he.first he.last

theorem undecorated_marked (hlabel : d.label = none → d.ticks = 0 → afterLabel? e = none)
    {blanks : Text} (hblanks : ∀ c ∈ blanks, isBlank c = true) :
    undecorated (d.marked e ++ blanks) = e := by
  have hstripped : Text.stripped (ticked d.ticks e ++ blanks) = ticked d.ticks e :=
    trimmed_append_right hblanks (he.head?_ticked d.ticks) (he.getLast?_ticked d.ticks)
  have hticks : ∀ c ∈ List.replicate d.ticks '\x60', (c == '\x60') = true := fun c hc =>
    beq_iff_eq.mpr (List.eq_of_mem_replicate hc)
  have hnot : ∀ c ∈ e, (c == '\x60') = false := by
    intro c hc
    rw [beq_eq_false_iff_ne]
    rintro rfl
    exact he.tick hc
  have htrimmed : Text.trimmed (· == '\x60') (ticked d.ticks e) = e := trimmed_append hticks hticks
    (fun c hc => hnot c (List.mem_of_mem_head? hc)) fun c hc => hnot c (List.mem_of_mem_getLast? hc)
  rw [undecorated, he.afterLabel?_marked d hlabel hblanks]
  simp only [hstripped, htrimmed, he.stripped_eq]

/-- Of what stands behind a marked expression, stripping leaves the part up to white space at the end. -/
theorem exists_stripped {lead : Text} (hlead : ∀ c ∈ lead, isBlank c = true) (trail : Text) :
    ∃ kept blanks, trail = kept ++ blanks ∧
      Text.stripped (lead ++ (d.marked e ++ trail)) = d.marked e ++ kept := by
  obtain ⟨kept, blanks, rfl, hblanks, hkept⟩ := exists_trailing isBlank trail
  refine ⟨kept, blanks, rfl, ?_⟩
  have hlast : ∀ c ∈ (d.marked e ++ kept).getLast?, isBlank c = false := by
    cases kept with
    | nil =>
      rw [List.append_nil]
      exact he.getLast?_marked d
    | cons c kept =>
      rw [List.getLast?_append_of_ne_nil _ (List.cons_ne_nil c kept)]
      exact hkept
  have hhead : ∀ c ∈ (d.marked e ++ kept).head?, isBlank c = false := by
    rw [List.head?_append_of_ne_nil _ (he.marked_ne_nil d)]
    exact he.head?_marked d
  rw [← List.append_assoc (d.marked e)]
  exact trimmed_append hlead hblanks hhead hlast

/-- The first line that is not blank is that of the expression. -/
theorem find?_lines {lead behind below : Text} (hlead : ∀ c ∈ lead, isBlank c = true)
    (hbehind : ∀ c ∈ behind, isPadding c = true) (hbelow : ∀ c ∈ below.head?, isLineEnd c = true) :
    ∃ blanks, (∀ c ∈ blanks, isBlank c = true) ∧
      (Text.stripped (lead ++ (d.marked e ++ (behind ++ below)))).lines.find?
        (fun line => !(Text.stripped line).isEmpty) = some (d.marked e ++ blanks) := by
  obtain ⟨kept, trail, hsplit, hstripped⟩ := he.exists_stripped d hlead (behind ++ below)
  -- What is kept behind the expression is nothing, or it goes beyond the white space of its line.
  obtain ⟨blanks, rest, rfl, hblanks, hrest⟩ : ∃ blanks rest, kept = blanks ++ rest ∧
      (∀ c ∈ blanks, isPadding c = true) ∧ ∀ c ∈ rest.head?, isLineEnd c = true := by
    rcases List.append_eq_append_iff.mp hsplit with ⟨t, rfl, ht⟩ | ⟨t, rfl, -⟩
    · refine ⟨behind, t, rfl, hbehind, ?_⟩
      cases t with
      | nil => exact nofun
      | cons c t => exact fun d hd => hbelow d (by rw [ht]; exact hd)
    · exact ⟨kept, [], (List.append_nil _).symm, (List.forall_mem_append.mp hbehind).1, nofun⟩
  have hinline : ∀ c ∈ d.marked e ++ blanks, isLineEnd c = false := List.forall_mem_append.mpr
    ⟨he.isLineEnd_marked d, fun c hc => isLineEnd_of_isPadding (hblanks c hc)⟩
  obtain ⟨more, hlines⟩ := exists_lines hinline (by simp [he.marked_ne_nil]) hrest
  have hblank : ∀ c ∈ blanks, isBlank c = true := fun c hc => isBlank_of_isPadding (hblanks c hc)
  have hline : Text.stripped (d.marked e ++ blanks) = d.marked e :=
    trimmed_append_right hblank (he.head?_marked d) (he.getLast?_marked d)
  refine ⟨blanks, hblank, ?_⟩
  rw [hstripped, ← List.append_assoc, hlines, List.find?_cons_of_pos]
  simp [hline, he.marked_ne_nil]

end IsLine

end Lines

/-! ### Fences -/

section Fences

variable {e content : Text} {c : Char}

theorem isTag_of_isBlank (h : isBlank c = true) : isTag c = false := by
  rw [Bool.eq_false_iff]
  intro ht
  rw [isTag, Bool.or_eq_true, Bool.or_eq_true, beq_iff_eq, beq_iff_eq] at ht
  rcases ht with (ht | rfl) | rfl
  · rw [isBlank_of_isAlphanum ht] at h
    cases h
  · cases h
  · cases h

theorem newline_mem_leadingBlanks {blanks : Text} (h : ∀ c ∈ blanks, isBlank c = true) (rest : Text) :
    '\n' ∈ leadingBlanks (blanks ++ '\n' :: rest) := by
  rw [leadingBlanks, List.takeWhile_append_of_pos h, List.takeWhile_cons_of_pos (by decide)]
  simp

/-- The content of a fence is read, if it is not all white space. -/
theorem fenced?_around (f : Fence) (hcontent : ∃ c ∈ content, isBlank c = false) :
    fenced? (f.around content) = some (f.inner content) := by
  have hstripped : Text.stripped (f.around content) =
      fenceMark ++ (f.tag ++ (f.inner content ++ fenceMark)) := by
    refine trimmed_append f.isBlank_front f.isBlank_behind (by rintro _ ⟨⟩; decide) ?_
    intro c hc
    rw [← List.append_assoc, ← List.append_assoc,
      List.getLast?_append_of_ne_nil _ (by decide : fenceMark ≠ [])] at hc
    obtain rfl := Option.some.inj hc
    decide
  have hbody : (f.tag ++ (f.inner content ++ fenceMark)).dropWhile isTag =
      f.inner content ++ fenceMark := by
    refine (takeWhile_run f.isTag_tag ?_).2
    rw [Fence.inner, List.append_assoc]
    cases hopening : f.opening with
    | nil =>
      rintro _ ⟨⟩
      decide
    | cons c opening =>
      rintro _ ⟨⟩
      exact isTag_of_isBlank (f.isBlank_opening c (hopening ▸ .head _))
  have hopening : '\n' ∈ leadingBlanks (f.inner content) :=
    newline_mem_leadingBlanks f.isBlank_opening _
  have hclosing : '\n' ∈ leadingBlanks (f.inner content).reverse := by
    have hreverse : (f.inner content).reverse =
        f.closing.reverse ++ '\n' :: (content.reverse ++ '\n' :: f.opening.reverse) := by
      simp [Fence.inner]
    rw [hreverse]
    exact newline_mem_leadingBlanks (fun c hc => f.isBlank_closing c (List.mem_reverse.mp hc)) _
  have hlength : ¬(f.inner content).length = (leadingBlanks (f.inner content)).length := by
    intro hlength
    obtain ⟨c, hc, hblank⟩ := hcontent
    have hall := (List.takeWhile_prefix isBlank).eq_of_length hlength.symm
    have hmem : c ∈ (f.inner content).takeWhile isBlank := by
      rw [hall, Fence.inner]
      simp [hc]
    rw [List.mem_takeWhile_imp hmem] at hblank
    cases hblank
  rw [fenced?, hstripped]
  simp only [Option.bind_eq_bind, Text.after?_eq_some.mpr rfl, Option.bind_some, hbody,
    List.reverse_append, List.reverse_reverse, if_neg hlength, List.elem_eq_mem, hopening, hclosing,
    decide_true, Bool.and_self, if_true]
  rfl

/-- The white space that a text with a backtick starts with lies in front of the backtick. -/
theorem mem_of_mem_leadingBlanks {before rest inner : Text}
    (h : (before ++ '\x60' :: rest).dropWhile isTag = inner ++ fenceMark)
    (hc : c ∈ leadingBlanks inner) : c ∈ before := by
  have hdrop : (before ++ '\x60' :: rest).dropWhile isTag =
      before.dropWhile isTag ++ '\x60' :: rest := by
    rw [List.dropWhile_append]
    split
    case isTrue hempty =>
      rw [List.isEmpty_iff.mp hempty]
      rfl
    case isFalse => rfl
  have hlead : leadingBlanks inner = leadingBlanks (before.dropWhile isTag) := by
    calc leadingBlanks inner
        = leadingBlanks (inner ++ fenceMark) := (takeWhile_append_stop (by decide) inner _).symm
      _ = leadingBlanks (before.dropWhile isTag ++ '\x60' :: rest) := by rw [← h, hdrop]
      _ = leadingBlanks (before.dropWhile isTag) := takeWhile_append_stop (by decide) _ rest
  rw [hlead] at hc
  exact (List.dropWhile_suffix isTag).mem ((List.takeWhile_prefix isBlank).mem hc)

/-- A text that starts with a fence's mark and has a backtick after it is no fence, if the line of the
mark does not end before the backtick. -/
theorem fenced?_eq_none {s before rest : Text}
    (hs : s.stripped = fenceMark ++ (before ++ '\x60' :: rest)) (hbefore : '\n' ∉ before) :
    fenced? s = none := by
  cases hf : fenced? s with
  | none => rfl
  | some content =>
    rw [fenced?, hs] at hf
    simp only [Option.bind_eq_bind, Text.after?_eq_some.mpr rfl, Option.bind_some,
      Option.bind_eq_some_iff] at hf
    obtain ⟨inner, hinner, hf⟩ := hf
    have hbody : (before ++ '\x60' :: rest).dropWhile isTag = inner.reverse ++ fenceMark := by
      have := congrArg List.reverse (Text.after?_eq_some.mp hinner)
      rwa [List.reverse_append, List.reverse_reverse, List.reverse_reverse] at this
    have hnewline : '\n' ∉ leadingBlanks inner.reverse := fun hmem =>
      hbefore (mem_of_mem_leadingBlanks hbody hmem)
    split at hf
    case isTrue =>
      rw [List.count_eq_zero.mpr hnewline] at hf
      cases hf
    case isFalse =>
      simp [hnewline] at hf

/-- The backticks around an expression are no fence. -/
theorem fenced?_decorated (d : Decoration) (he : IsLine e) : fenced? (d.around e) = none := by
  obtain ⟨kept, blanks, -, hstripped⟩ :=
    he.exists_stripped d d.isBlank_front (d.behind ++ d.below)
  cases hmark : Text.after? fenceMark (d.marked e ++ kept) with
  | none => rw [fenced?, Decoration.around, hstripped, hmark]; rfl
  | some more =>
    have hstarts := Text.after?_eq_some.mp hmark
    cases hl : d.label with
    | some label =>
      obtain ⟨c, w, hw, hc⟩ := exists_cons_of_label label.meets
      rw [Decoration.marked, Decoration.labelText, hl, Option.map_some, Option.getD_some, Label.text,
        hw] at hstarts
      obtain ⟨rfl, -⟩ := List.cons.inj hstarts
      exact absurd hc (by decide)
    | none =>
      have hmarked : d.marked e = ticked d.ticks e := by
        simp [Decoration.marked, Decoration.labelText, hl]
      obtain ⟨c, t, rfl, -⟩ := he.exists_cons
      have hc : c ≠ '\x60' := by
        rintro rfl
        exact he.tick (.head _)
      rw [hmarked] at hstarts hstripped
      have hticks : 3 ≤ d.ticks := by
        by_contra hlt
        have hfew : d.ticks = 0 ∨ d.ticks = 1 ∨ d.ticks = 2 := by omega
        rcases hfew with hn | hn | hn
        all_goals simp [hn, ticked, fenceMark, List.replicate_succ, hc] at hstarts
      obtain ⟨n, hn⟩ : ∃ n, d.ticks = n + 3 := Nat.exists_eq_add_of_le' hticks
      have hshape : Text.stripped (d.around (c :: t)) = fenceMark ++
          ((List.replicate n '\x60' ++ c :: t) ++
            '\x60' :: (List.replicate (n + 2) '\x60' ++ kept)) := by
        rw [Decoration.around, hmarked, hstripped, hn]
        simp [ticked, fenceMark, List.replicate_succ]
      refine fenced?_eq_none hshape fun hmem => ?_
      rcases List.mem_append.mp hmem with hmem | hmem
      · exact absurd (List.eq_of_mem_replicate hmem) (by decide)
      · exact absurd (he.inline _ hmem) (by decide)

end Fences

/-! ### Answers -/

/-- A decorated expression, in a fence or without one. -/
def Decoration.answer (d : Decoration) (e : Text) : Option Fence → Text
  | none => d.around e
  | some f => f.around (d.around e)

section Answers

variable {e : Text} (d : Decoration)

theorem IsLine.isEmpty_eq_false (he : IsLine e) : e.isEmpty = false :=
  List.isEmpty_eq_false_iff.mpr he.ne_nil

/-- Both with a fence and without one, the expression's line is the first that is not blank. -/
theorem exists_line (he : IsLine e) (fence : Option Fence) :
    ∃ blanks, (∀ c ∈ blanks, isBlank c = true) ∧
      (unfenced (d.answer e fence)).lines.find? (fun line => !(Text.stripped line).isEmpty) =
        some (d.marked e ++ blanks) := by
  cases fence with
  | none =>
    rw [Decoration.answer, unfenced, fenced?_decorated d he, Option.getD_none]
    exact he.find?_lines d d.isBlank_front d.isPadding_behind d.isLineEnd_below
  | some f =>
    have hcontent : ∃ c ∈ d.around e, isBlank c = false := by
      obtain ⟨c, t, rfl, hc⟩ := he.exists_cons
      exact ⟨c, by simp [Decoration.around, Decoration.marked, ticked], hc⟩
    have hinner : f.inner (d.around e) = (f.opening ++ '\n' :: d.front) ++
        (d.marked e ++ (d.behind ++ (d.below ++ '\n' :: f.closing))) := by
      simp [Fence.inner, Decoration.around]
    have hlead : ∀ c ∈ f.opening ++ '\n' :: d.front, isBlank c = true := List.forall_mem_append.mpr
      ⟨f.isBlank_opening, List.forall_mem_cons.mpr ⟨by decide, d.isBlank_front⟩⟩
    have hbelow : ∀ c ∈ (d.below ++ '\n' :: f.closing).head?, isLineEnd c = true := by
      cases hb : d.below with
      | nil =>
        rintro _ ⟨⟩
        decide
      | cons c below => exact fun x hx => d.isLineEnd_below x (by rw [hb]; exact hx)
    rw [Decoration.answer, unfenced, fenced?_around f hcontent, Option.getD_some, hinner]
    exact he.find?_lines d hlead d.isPadding_behind hbelow

/-- An answer that decorates an expression is read as the expression, with its signs expanded.  Where
neither a label nor a backtick stands in front of the expression, it must not start with a label
itself. -/
theorem answerExpression_decorated (he : IsLine e) (fence : Option Fence)
    (hlabel : d.label = none → d.ticks = 0 → afterLabel? e = none) :
    answerExpression (d.answer e fence) = .ok (expandSigns e) := by
  obtain ⟨blanks, hblanks, hfind⟩ := exists_line d he fence
  rw [answerExpression, hfind]
  simp only [he.undecorated_marked d hlabel hblanks, he.isEmpty_eq_false]
  rfl

end Answers

/-- A label and backticks, in a fence with a tag, around an expression with a percentage and an open
root. -/
theorem answerExpression_decorated_fenced :
    answerExpression "\x60\x60\x60text\n ANSWER : \x60\x6020% of 5 + sqrt(9\x60\x60\n3\n\x60\x60\x60\n" =
      .ok "(20/100)*5 + sqrt(9)".toList := by
  let label : Label := ⟨"ANSWER", " ", " ", by decide, by decide⟩
  let d : Decoration := ⟨" ", some label, 2, [], "\n3", by decide, by decide, by decide, by decide⟩
  let f : Fence := ⟨[], "text", [], [], "\n", by decide, by decide, by decide, by decide, by decide⟩
  have he : IsLine "20% of 5 + sqrt(9" := ⟨by decide, by decide, by decide, by decide, by decide⟩
  have h := answerExpression_decorated d he (some f) fun hnone => nomatch hnone
  rwa [show expandSigns "20% of 5 + sqrt(9" = "(20/100)*5 + sqrt(9)".toList by decide +kernel] at h

end Reckoner
