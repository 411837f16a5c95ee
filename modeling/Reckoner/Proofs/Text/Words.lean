import Reckoner.Proofs.Text.Lines
import Reckoner.Proofs.Text.Unspaced

/-! The words of a text.  A text is cut in one way only into white space and words, so its words tell
what it is up to the white space between them. -/

namespace Reckoner

/-- A text that is one word: it has a character and no white space. -/
structure IsSolid (w : Text) : Prop where
  ne_nil : w ≠ []
  solid : ∀ c ∈ w, isBlank c = false

namespace Text

variable {c : Char} {s w rest gap : Text} {ws : List Text}

theorem words_cons_of_blank (h : isBlank c = true) (s : Text) : words (c :: s) = words s := by
  rw [words.eq_def]
  simp [h]

theorem words_append_left (h : ∀ c ∈ gap, isBlank c = true) (s : Text) :
    words (gap ++ s) = words s := by
  induction gap with
  | nil => rfl
  | cons c gap ih =>
    obtain ⟨hc, hgap⟩ := List.forall_mem_cons.mp h
    rw [List.cons_append, words_cons_of_blank hc, ih hgap]

theorem words_skipBlanks (s : Text) : words s.skipBlanks = words s := by
  obtain ⟨gap, hs, hgap⟩ := exists_skipBlanks s
  calc words s.skipBlanks = words (gap ++ s.skipBlanks) := (words_append_left hgap _).symm
    _ = words s := by rw [← hs]

theorem words_eq_nil_iff : words s = [] ↔ ∀ c ∈ s, isBlank c = true := by
  constructor
  · intro h c hc
    have hflatten := flatten_words s
    rw [h, List.flatten_nil, eq_comm, unspaced, List.filter_eq_nil_iff] at hflatten
    simpa using hflatten c hc
  · intro h
    have happend := words_append_left h []
    rwa [List.append_nil] at happend

theorem words_of_isSolid (h : IsSolid w) : words w = [w] := by
  obtain ⟨hne, hw⟩ := h
  induction w with
  | nil => exact absurd rfl hne
  | cons c w ih =>
    obtain ⟨hc, hw⟩ := List.forall_mem_cons.mp hw
    cases w with
    | nil => simp [words, hc]
    | cons d w =>
      rw [words, ih (List.cons_ne_nil _ _) hw]
      simp [hc, hw d (.head _)]

/-- The words of a text with a gap or nothing in front of its rest. -/
theorem words_append (h : ∀ c ∈ rest.head?, isBlank c = true) (s : Text) :
    words (s ++ rest) = words s ++ words rest := by
  fun_induction words s with
  | case1 => rfl
  | case2 c s hc ih => rw [List.cons_append, words_cons_of_blank hc, ih]
  | case3 c hc =>
    cases rest with
    | nil => simp [words, hc]
    | cons d rest =>
      have hd : isBlank d = true := h d rfl
      rw [List.singleton_append, words]
      simp [hc, hd]
  | case4 c hc d s hd ih =>
    rw [List.cons_append, List.cons_append, words, ← List.cons_append, ih]
    simp [hc, hd]
  | case5 c hc d s hd hnil ih => exact absurd (words_eq_nil_iff.mp hnil d (.head _)) hd
  | case6 c hc d s hd word more hwords ih =>
    rw [List.cons_append, List.cons_append, words, ← List.cons_append, ih, hwords]
    simp [hc, hd]

theorem words_append_right (h : ∀ c ∈ gap, isBlank c = true) (s : Text) :
    words (s ++ gap) = words s := by
  rw [words_append (fun c hc => h c (List.mem_of_mem_head? hc)), words_eq_nil_iff.mpr h,
    List.append_nil]

theorem words_cons (hw : IsSolid w) (hrest : ∀ c ∈ rest.head?, isBlank c = true) :
    words (w ++ rest) = w :: words rest := by
  rw [words_append hrest, words_of_isSolid hw, List.singleton_append]

/-- A word in front of a text goes on to the white space in it. -/
theorem exists_words_append {a : Text} (ha : IsSolid a) (s : Text) : ∃ u rest, s = u ++ rest ∧
    (∀ c ∈ rest.head?, isBlank c = true) ∧ IsSolid (a ++ u) ∧
    words (a ++ s) = (a ++ u) :: words rest := by
  generalize hu : s.takeWhile (fun c => !isBlank c) = u
  generalize hrest : s.dropWhile (fun c => !isBlank c) = rest
  have hs : s = u ++ rest := by rw [← hu, ← hrest, List.takeWhile_append_dropWhile]
  have hparted : ∀ c ∈ rest.head?, isBlank c = true := fun c hc => by
    simpa using head?_dropWhile_eq_false (p := fun c => !isBlank c) c (hrest ▸ hc)
  have hsolid : IsSolid (a ++ u) := by
    refine ⟨by simp [ha.ne_nil], List.forall_mem_append.mpr ⟨ha.solid, fun c hc => ?_⟩⟩
    rw [← hu] at hc
    simpa using List.mem_takeWhile_imp hc
  exact ⟨u, rest, hs, hparted, hsolid, by rw [hs, ← List.append_assoc, words_cons hsolid hparted]⟩

/-- The first word of a text, with the white space in front of it and what follows it. -/
theorem exists_of_words (h : words s = w :: ws) : ∃ gap rest, s = gap ++ (w ++ rest) ∧
    (∀ c ∈ gap, isBlank c = true) ∧ IsSolid w ∧ (∀ c ∈ rest.head?, isBlank c = true) ∧
    words rest = ws := by
  obtain ⟨gap, hs, hgap⟩ := exists_skipBlanks s
  cases hskip : s.skipBlanks with
  | nil =>
    rw [hskip, List.append_nil] at hs
    rw [words_eq_nil_iff.mpr (hs ▸ hgap)] at h
    cases h
  | cons c t =>
    have hc : isBlank c = false := head?_dropWhile_eq_false c (congrArg List.head? hskip)
    obtain ⟨u, rest, hrest, hparted, hsolid, hwords⟩ :=
      exists_words_append ⟨List.cons_ne_nil c [], by simpa using hc⟩ t
    rw [hs, hskip, words_append_left hgap] at h
    obtain ⟨rfl, rfl⟩ := List.cons.inj (hwords.symm.trans h)
    exact ⟨gap, rest, by rw [hs, hskip, hrest]; rfl, hgap, hsolid, hparted, rfl⟩

/-- A text that starts with a word. -/
theorem exists_of_words_first (h : words s = w :: ws) (hfirst : ∀ c ∈ s.head?, isBlank c = false) :
    ∃ rest, s = w ++ rest ∧ IsSolid w ∧ (∀ c ∈ rest.head?, isBlank c = true) ∧ words rest = ws := by
  obtain ⟨gap, rest, rfl, hgap, hw⟩ := exists_of_words h
  cases gap with
  | nil => exact ⟨rest, rfl, hw⟩
  | cons c gap =>
    have hc := hgap c (.head _)
    rw [hfirst c rfl] at hc
    cases hc

/-- A run without white space at the start of a text ends where white space starts. -/
theorem prefix_of_prefix_append {a : Text} (ha : ∀ c ∈ a, isBlank c = false)
    (hrest : ∀ c ∈ rest.head?, isBlank c = true) (h : a <+: s ++ rest) : a <+: s := by
  obtain ⟨t, ht⟩ := h
  rcases List.append_eq_append_iff.mp ht with ⟨u, rfl, -⟩ | ⟨u, rfl, rfl⟩
  · exact List.prefix_append a u
  · cases u with
    | nil => simp
    | cons c u =>
      have hc := hrest c rfl
      rw [ha c (by simp)] at hc
      cases hc

/-- What white space and the characters of all words satisfy, all characters do. -/
theorem forall_mem_of_words {p : Char → Prop} (hblank : ∀ c, isBlank c = true → p c)
    (h : ∀ w ∈ words s, ∀ c ∈ w, p c) : ∀ c ∈ s, p c := by
  intro c hc
  cases hb : isBlank c with
  | true => exact hblank c hb
  | false =>
    have hmem : c ∈ (words s).flatten := by
      rw [flatten_words, unspaced]
      exact List.mem_filter.mpr ⟨hc, by rw [hb]; rfl⟩
    obtain ⟨w, hw, hcw⟩ := List.mem_flatten.mp hmem
    exact h w hw c hcw

/-- A change of characters that keeps white space apart changes each word by itself. -/
theorem words_map {f : Char → Char} (hf : ∀ c, isBlank (f c) = isBlank c) (s : Text) :
    words (s.map f) = (words s).map (List.map f) := by
  generalize hws : words s = ws
  induction ws generalizing s with
  | nil =>
    refine words_eq_nil_iff.mpr fun d hd => ?_
    obtain ⟨c, hc, rfl⟩ := List.mem_map.mp hd
    rw [hf, words_eq_nil_iff.mp hws c hc]
  | cons w ws ih =>
    obtain ⟨gap, rest, rfl, hgap, hw, hrest, hmore⟩ := exists_of_words hws
    have hgap' : ∀ c ∈ gap.map f, isBlank c = true := List.forall_mem_map.mpr fun c hc =>
      (hf c).trans (hgap c hc)
    have hw' : IsSolid (w.map f) := ⟨by simpa using hw.ne_nil,
      List.forall_mem_map.mpr fun c hc => (hf c).trans (hw.solid c hc)⟩
    have hrest' : ∀ c ∈ (rest.map f).head?, isBlank c = true := by
      intro d hd
      rw [List.head?_map] at hd
      obtain ⟨c, hc, rfl⟩ := Option.map_eq_some_iff.mp hd
      rw [hf, hrest c hc]
    rw [List.map_append, List.map_append, words_append_left hgap', words_cons hw' hrest', ih rest hmore,
      List.map_cons]

theorem words_stripped (s : Text) : words s.stripped = words s := by
  obtain ⟨trail, htrail, htrailBlank⟩ := exists_skipBlanks s.skipBlanks.reverse
  have hskip : s.skipBlanks = s.stripped ++ trail.reverse := by
    have := congrArg List.reverse htrail
    rwa [List.reverse_reverse, List.reverse_append] at this
  calc words s.stripped
      = words (s.stripped ++ trail.reverse) :=
        (words_append_right (fun c hc => htrailBlank c (List.mem_reverse.mp hc)) _).symm
    _ = words s := by rw [← hskip, words_skipBlanks]

/-- A run that white space ends is the end of a word. -/
theorem exists_word_of_append {a v : Text} (hv : IsSolid v)
    (hrest : ∀ c ∈ rest.head?, isBlank c = true) : ∃ w ∈ words (a ++ (v ++ rest)), v <:+ w := by
  generalize hkept : (a.reverse.dropWhile fun c => !isBlank c).reverse = kept
  generalize hrun : (a.reverse.takeWhile fun c => !isBlank c).reverse = run
  have ha : a = kept ++ run := by
    rw [← hkept, ← hrun, ← List.reverse_append, List.takeWhile_append_dropWhile,
      List.reverse_reverse]
  have hsolid : IsSolid (run ++ v) := by
    refine ⟨by simp [hv.ne_nil], List.forall_mem_append.mpr ⟨fun c hc => ?_, hv.solid⟩⟩
    rw [← hrun] at hc
    simpa using List.mem_takeWhile_imp (List.mem_reverse.mp hc)
  have hwords : words (run ++ (v ++ rest)) = (run ++ v) :: words rest := by
    rw [← List.append_assoc, words_cons hsolid hrest]
  refine ⟨run ++ v, ?_, List.suffix_append _ _⟩
  rw [ha, List.append_assoc]
  rcases List.eq_nil_or_concat kept with rfl | ⟨before, c, rfl⟩
  · rw [List.nil_append, hwords]
    exact .head _
  · have hc : isBlank c = true := by
      have hlast : ∀ d ∈ (a.reverse.dropWhile fun c => !isBlank c).head?, (!isBlank d) = false :=
        head?_dropWhile_eq_false
      simpa using hlast c (by rw [← List.getLast?_reverse, hkept]; simp)
    have hsplit : words (before ++ (c :: (run ++ (v ++ rest)))) =
        words before ++ (run ++ v) :: words rest := by
      rw [words_append (by rintro _ ⟨⟩; exact hc), words_cons_of_blank hc, hwords]
    rw [List.concat_eq_append, List.append_assoc, List.singleton_append, hsplit]
    exact List.mem_append_right _ (.head _)

end Text

end Reckoner
