import Reckoner.Answer
import Reckoner.Proofs.Phrase.Accepted
import Reckoner.Proofs.Text.Lines

/-! Texts that have a value, rewritten.  Where none of their square roots is taken to be open, the
three ways to an expression (the signs of a phrase, the cleaned answer of a model and the spoken
request) leave the value as it is.  Where one is, a parenthesis is closed that was not open, and
none of the three results has a value. -/

namespace Reckoner

section Transparency

variable {degrees : Bool} {s t : Text} {value : Double}

/-! ### Signs -/

theorem expandSigns_eq_self (h : evaluate degrees s = .ok value) (hs : ¬HasOpenRoot s) :
    expandSigns s = s := by
  rw [expandSigns_eq h]
  refine substituteFrom_eq_self ?_
  cases hf : findsFrom openRoot none s with
  | false => rfl
  | true => exact absurd (finds_openRoot.mp hf) hs

theorem excess_expandSigns_pos (h : evaluate degrees s = .ok value) (hs : HasOpenRoot s) :
    0 < Text.excess (expandSigns s) := by
  rw [expandSigns_eq h, ← excess_of_evaluate h]
  exact excess_substituteFrom_lt (fun _ _ _ hr => openRoot_closes hr) (finds_openRoot.mpr hs)

/-- A text that closes more parentheses than it opens has no value. -/
theorem evaluate_error_of_excess (h : 0 < Text.excess s) :
    ∃ error, evaluate degrees s = .error error := by
  cases he : evaluate degrees s with
  | error error => exact ⟨error, rfl⟩
  | ok value =>
    rw [excess_of_evaluate he] at h
    exact absurd h (Int.lt_irrefl 0)

/-! ### Spoken requests -/

theorem plainRequest_eq (h : evaluate degrees s = .ok value) :
    plainRequest s = Text.stripped (s.map Char.toLower) := by
  have hlower := lower_eq_map (isPlain_of_evaluate h)
  have hmarks : ∀ c ∈ s.map Char.toLower, (c != '?') = true := by
    intro c hc
    have := isScannable_of_evaluate (evaluate_map_toLower h) c hc
    rw [bne_iff_ne]
    rintro rfl
    exact absurd this (by decide)
  rw [plainRequest, hlower, List.filter_eq_self.mpr hmarks]

theorem bareCall_closes : Reader.Closes bareCall := by
  intro before t found h
  rw [bareCall] at h
  split at h
  case isTrue =>
    obtain ⟨⟨name, n, rest⟩, hfind, rfl⟩ := Option.map_eq_some_iff.mp h
    obtain ⟨f, -, hcall⟩ := List.exists_of_findSome?_eq_some hfind
    obtain ⟨c, blanks, ht, hc, hblanks, hn, hmeets⟩ := call?_eq_some hcall
    have hpart : t = name ++ (c :: blanks ++ n) ++ rest := by simp [ht]
    have hname : Text.excess name = 0 := excess_of_meets (by cases f <;> decide) hmeets
    have hgap : Text.excess (c :: blanks) = 0 :=
      excess_of_blanks (List.forall_mem_cons.mpr ⟨hc, hblanks⟩)
    refine ⟨?_, ?_⟩
    · rw [size_upTo hpart]
      simp only [List.length_append, List.length_cons]
      omega
    · rw [take_upTo hpart]
      simp only [Found.upTo, Text.excess_append, hname, hgap, hn.excess_eq_zero]
      decide
  case isFalse => cases h

/-- Whether the words of a phrase have no parenthesis in them. -/
def Phrase.isQuiet (phrase : Phrase) : Bool :=
  phrase.all fun
    | .word letters => letters.all fun a => !meetsLetter a '(' && !meetsLetter a ')'
    | _ => true

/-- What is read of a quiet phrase opens and closes no parenthesis. -/
theorem Phrase.exists_part {phrase : Phrase} {rest : Text} (hq : phrase.isQuiet = true)
    (h : phrase.after? t = some rest) : ∃ part, t = part ++ rest ∧ Text.excess part = 0 := by
  induction phrase generalizing t with
  | nil =>
    obtain rfl := Option.some.inj h
    exact ⟨[], rfl, rfl⟩
  | cons piece phrase ih =>
    rw [isQuiet, List.all_cons, Bool.and_eq_true] at hq
    obtain ⟨hpiece, hphrase⟩ := hq
    cases piece with
    | word letters =>
      rw [after?] at h
      split at h
      case h_1 more hmore =>
        obtain ⟨w, rfl, hmeets⟩ := afterWord?_eq_some.mp hmore
        obtain ⟨part, rfl, hpart⟩ := ih hphrase h
        have hw : Text.excess w = 0 := excess_of_meets hpiece hmeets
        exact ⟨w ++ part, by simp, by rw [Text.excess_append, hw, hpart]; rfl⟩
      case h_2 => cases h
    | gap =>
      cases t with
      | nil => cases h
      | cons c t =>
        rw [after?] at h
        split at h
        case isTrue hc =>
          obtain ⟨blanks, hblanks, hall⟩ := exists_skipBlanks t
          obtain ⟨part, hpart, hzero⟩ := ih hphrase h
          have hgap : Text.excess (c :: blanks) = 0 :=
            excess_of_blanks (List.forall_mem_cons.mpr ⟨hc, hall⟩)
          refine ⟨c :: blanks ++ part, ?_, by rw [Text.excess_append, hgap, hzero]; rfl⟩
          rw [List.append_assoc, ← hpart, List.cons_append, ← hblanks]
        case isFalse => cases h
    | looseGap =>
      rw [after?] at h
      obtain ⟨blanks, hblanks, hall⟩ := exists_skipBlanks t
      obtain ⟨part, hpart, hzero⟩ := ih hphrase h
      refine ⟨blanks ++ part, ?_, by rw [Text.excess_append, excess_of_blanks hall, hzero]; rfl⟩
      rw [List.append_assoc, ← hpart, ← hblanks]

theorem Phrase.length_lt {phrase : Phrase} {rest : Text} (hq : phrase.isQuiet = true)
    (hf : phrase.isForeign = true) (h : phrase.after? t = some rest) : rest.length < t.length := by
  match phrase, hf with
  | .word letters :: phrase, hf =>
    rw [isQuiet, List.all_cons, Bool.and_eq_true] at hq
    rw [after?] at h
    split at h
    case h_1 more hmore =>
      obtain ⟨w, rfl, hmeets⟩ := afterWord?_eq_some.mp hmore
      obtain ⟨part, rfl, -⟩ := Phrase.exists_part hq.2 h
      have hne : letters ≠ [] := by
        rintro rfl
        cases hf
      have hpos : 0 < letters.length := List.length_pos_iff.mpr hne
      have hlen := hmeets.length_eq
      simp only [List.length_append]
      omega
    case h_2 => cases h

theorem fillers_closes : Reader.Closes (Phrase.reader fillers.phrases fillers.sign) := by
  intro before t found h
  rw [Phrase.reader] at h
  split at h
  case isTrue =>
    obtain ⟨rest, hfind, rfl⟩ := Option.map_eq_some_iff.mp h
    obtain ⟨phrase, hphrase, hwhole⟩ := List.exists_of_findSome?_eq_some hfind
    have hafter : phrase.after? t = some rest := (Option.filter_eq_some_iff.mp hwhole).1
    have hquiet : phrase.isQuiet = true := by
      have : ∀ phrase ∈ fillers.phrases, Phrase.isQuiet phrase = true := by decide +kernel
      exact this phrase hphrase
    have hforeign := isForeign_of_mem fillers (.head _) phrase hphrase
    obtain ⟨part, hpart, hzero⟩ := Phrase.exists_part hquiet hafter
    refine ⟨Nat.sub_pos_of_lt (Phrase.length_lt hquiet hforeign hafter), ?_⟩
    rw [take_upTo hpart, hzero]
    exact Int.le_refl 0
  case isFalse => cases h

/-! ### Answers -/

/-- What is left behind a label: the label is one of two words with a colon, and white space plays no
part in it. -/
theorem exists_of_afterLabel? {rest : Text} (h : afterLabel? s = some rest) :
    ∃ lead word gap more, s = lead ++ (word ++ (gap ++ ':' :: more)) ∧
      (∀ c ∈ lead, isBlank c = true) ∧
      (List.Forall₂ (fun a c => meetsLetter a c = true) "expression".toList word ∨
        List.Forall₂ (fun a c => meetsLetter a c = true) "answer".toList word) ∧
      (∀ c ∈ gap, isBlank c = true) ∧ rest = Text.skipBlanks more := by
  rw [afterLabel?] at h
  simp only [Option.bind_eq_bind, Option.bind_eq_some_iff] at h
  obtain ⟨behind, hlabel, more, hsign, h⟩ := h
  obtain ⟨lead, hlead, hblank⟩ := exists_skipBlanks s
  obtain ⟨gap, hgap, hgapBlank⟩ := exists_skipBlanks behind
  have hword : ∃ word, s.skipBlanks = word ++ behind ∧
      (List.Forall₂ (fun a c => meetsLetter a c = true) "expression".toList word ∨
        List.Forall₂ (fun a c => meetsLetter a c = true) "answer".toList word) := by
    cases he : s.skipBlanks.afterWord? "expression" with
    | some _ =>
      rw [he] at hlabel
      obtain rfl := Option.some.inj hlabel
      obtain ⟨word, hs, hmeets⟩ := afterWord?_eq_some.mp he
      exact ⟨word, hs, .inl hmeets⟩
    | none =>
      rw [he] at hlabel
      obtain ⟨word, hs, hmeets⟩ := afterWord?_eq_some.mp hlabel
      exact ⟨word, hs, .inr hmeets⟩
  obtain ⟨word, hs, hmeets⟩ := hword
  refine ⟨lead, word, gap, more, ?_, hblank, hmeets, hgapBlank, (Option.some.inj h).symm⟩
  rw [← afterSign?_eq_some.mp hsign, ← hgap, ← hs, ← hlead]

theorem mem_of_afterLabel? (h : (afterLabel? s).isSome = true) : ':' ∈ s := by
  obtain ⟨rest, h⟩ := Option.isSome_iff_exists.mp h
  obtain ⟨lead, word, gap, more, rfl, -⟩ := exists_of_afterLabel? h
  simp

theorem mem_of_mem_stripped {c : Char} (h : c ∈ s.stripped) : c ∈ s := by
  have h' : c ∈ (s.dropWhile isBlank).reverse :=
    (List.dropWhile_suffix _).mem (List.mem_reverse.mp h)
  exact (List.dropWhile_suffix _).mem (List.mem_reverse.mp h')

theorem mem_of_fenced? (h : (fenced? s).isSome = true) : '\x60' ∈ s := by
  obtain ⟨rest, h⟩ := Option.isSome_iff_exists.mp h
  rw [fenced?] at h
  simp only [Option.bind_eq_bind, Option.bind_eq_some_iff] at h
  obtain ⟨body, hbody, -⟩ := h
  refine mem_of_mem_stripped ?_
  rw [Text.after?_eq_some.mp hbody]
  exact .head _

/-- A line of a text that has a value has no label and no mark of a fence. -/
theorem not_mem_of_evaluate (h : evaluate degrees s = .ok value) : ':' ∉ s ∧ '\x60' ∉ s := by
  have hs := isScannable_of_evaluate h
  exact ⟨fun hc => absurd (hs _ hc) (by decide), fun hc => absurd (hs _ hc) (by decide)⟩

theorem unspaced_ne_nil (h : evaluate degrees s = .ok value) : Text.unspaced s ≠ [] := by
  intro hnil
  have hempty : evaluate degrees [] = .ok value := (evaluate_congr hnil).mp h
  have herror : evaluate degrees [] = .error (.eval .invalidExpression) := by
    cases degrees <;> decide +kernel
  rw [herror] at hempty
  cases hempty

theorem undecorated_of_not_mem (hlabel : ':' ∉ s) (hmark : '\x60' ∉ s) :
    undecorated s = s.stripped.stripped := by
  have hnone : afterLabel? s = none := by
    cases hl : afterLabel? s with
    | none => rfl
    | some rest => exact absurd (mem_of_afterLabel? (by rw [hl]; rfl)) hlabel
  have htrim : s.stripped.trimmed (· == '\x60') = s.stripped := trimmed_eq_self fun c hc => by
    rw [beq_eq_false_iff_ne]
    rintro rfl
    exact hmark (mem_of_mem_stripped hc)
  rw [undecorated, hnone, Option.getD_none, htrim]

/-- An answer on one line, without label and marks, is cleaned to its signs. -/
theorem answerExpression_of_not_mem (hlabel : ':' ∉ s) (hmark : '\x60' ∉ s)
    (hspaced : Text.unspaced s ≠ []) (hline : ∀ c ∈ s.stripped, isLineEnd c = false) :
    answerExpression s = .ok (expandSigns s.stripped.stripped.stripped) := by
  have hfence : fenced? s = none := by
    cases hf : fenced? s with
    | none => rfl
    | some rest => exact absurd (mem_of_fenced? (by rw [hf]; rfl)) hmark
  have hne : ∀ t : Text, Text.unspaced t = Text.unspaced s → t.isEmpty = false := by
    intro t ht
    rw [List.isEmpty_eq_false_iff]
    rintro rfl
    exact hspaced ht.symm
  have hlines : s.stripped.lines = [s.stripped] := by
    refine lines_eq_singleton hline ?_
    simpa using hne s.stripped (Text.unspaced_stripped s)
  have hfirst := hne s.stripped.stripped (by simp only [Text.unspaced_stripped])
  have hlast := hne s.stripped.stripped.stripped (by simp only [Text.unspaced_stripped])
  have hundecorated : undecorated s.stripped = s.stripped.stripped.stripped :=
    undecorated_of_not_mem (fun hmem => hlabel (mem_of_mem_stripped hmem))
      fun hmem => hmark (mem_of_mem_stripped hmem)
  rw [answerExpression, unfenced, hfence, Option.getD_none, hlines, List.find?_cons_of_pos
    (by simp only [hfirst]; rfl)]
  simp only [hundecorated, hlast]
  rfl

theorem answerExpression_eq (h : evaluate degrees s = .ok value)
    (hline : ∀ c ∈ s.stripped, isLineEnd c = false) :
    answerExpression s = .ok (expandSigns s.stripped.stripped.stripped) :=
  answerExpression_of_not_mem (not_mem_of_evaluate h).1 (not_mem_of_evaluate h).2 (unspaced_ne_nil h)
    hline

/-! ### The three ways -/

/-- A spoken request that has a value and no open root is read as itself. -/
theorem evaluate_spokenExpression (h : evaluate degrees s = .ok value) (hs : ¬HasOpenRoot s) :
    evaluate degrees (spokenExpression s) = .ok value := by
  have hplain := plainRequest_eq h
  have hvalue : evaluate degrees (plainRequest s) = .ok value := by
    rw [hplain]
    exact (evaluate_congr (Text.unspaced_stripped _)).mpr (evaluate_map_toLower h)
  have hopen : ¬HasOpenRoot (plainRequest s) := by
    rwa [hplain, hasOpenRoot_stripped, hasOpenRoot_map_toLower]
  have hcalls : substitute bareCall (plainRequest s) = plainRequest s :=
    substitute_eq_self fun before t ht => bareCall_eq_none hvalue before ht
  rw [spokenExpression, applyRules_eq_self hvalue fun _ hr => hr, expandSigns_eq_self hvalue hopen,
    hcalls, Rule.apply_eq_self hvalue (.head _)]
  exact (evaluate_congr (Text.unspaced_joined_words _)).mpr hvalue

/-- In a spoken request that has a value, an open root leaves a parenthesis that nothing opens. -/
theorem excess_spokenExpression_pos (h : evaluate degrees s = .ok value) (hs : HasOpenRoot s) :
    0 < Text.excess (spokenExpression s) := by
  have hplain := plainRequest_eq h
  have hvalue : evaluate degrees (plainRequest s) = .ok value := by
    rw [hplain]
    exact (evaluate_congr (Text.unspaced_stripped _)).mpr (evaluate_map_toLower h)
  have hopen : HasOpenRoot (plainRequest s) := by
    rwa [hplain, hasOpenRoot_stripped, hasOpenRoot_map_toLower]
  rw [spokenExpression, applyRules_eq_self hvalue fun _ hr => hr, ← Text.excess_unspaced,
    Text.unspaced_joined_words, Text.excess_unspaced]
  calc 0 < Text.excess (expandSigns (plainRequest s)) := excess_expandSigns_pos hvalue hopen
    _ ≤ Text.excess (substitute bareCall (expandSigns (plainRequest s))) :=
      excess_substitute_le bareCall_closes _
    _ ≤ Text.excess (fillers.apply (substitute bareCall (expandSigns (plainRequest s)))) :=
      excess_substitute_le fillers_closes _

/-- A text on one line that has a value keeps it on all three ways if none of its square roots is
taken to be open, and otherwise has a value on none of them. -/
theorem rewriting_of_evaluate (h : evaluate degrees s = .ok value)
    (hline : ∀ c ∈ s.stripped, isLineEnd c = false) :
    (¬HasOpenRoot s →
      evaluate degrees (expandSigns s) = .ok value ∧
      (∃ answer, answerExpression s = .ok answer ∧ evaluate degrees answer = .ok value) ∧
      evaluate degrees (spokenExpression s) = .ok value) ∧
    (HasOpenRoot s →
      (∃ error, evaluate degrees (expandSigns s) = .error error) ∧
      (∃ answer, answerExpression s = .ok answer ∧
        ∃ error, evaluate degrees answer = .error error) ∧
      ∃ error, evaluate degrees (spokenExpression s) = .error error) := by
  have hanswer := answerExpression_eq h hline
  have hvalue : evaluate degrees s.stripped.stripped.stripped = .ok value :=
    (evaluate_congr (by simp only [Text.unspaced_stripped])).mpr h
  have hopen : HasOpenRoot s.stripped.stripped.stripped ↔ HasOpenRoot s := by
    simp only [hasOpenRoot_stripped]
  constructor
  · intro hs
    refine ⟨?_, ⟨_, hanswer, ?_⟩, evaluate_spokenExpression h hs⟩
    · rwa [expandSigns_eq_self h hs]
    · rwa [expandSigns_eq_self hvalue (mt hopen.mp hs)]
  · intro hs
    refine ⟨evaluate_error_of_excess (excess_expandSigns_pos h hs), ⟨_, hanswer, ?_⟩,
      evaluate_error_of_excess (excess_spokenExpression_pos h hs)⟩
    exact evaluate_error_of_excess (excess_expandSigns_pos hvalue (hopen.mpr hs))

end Transparency

theorem rewriting_of_evaluate_closed_root :
    ∃ s : Text, ∃ value, evaluate true s = .ok value ∧
      (∀ c ∈ s.stripped, isLineEnd c = false) ∧ ¬HasOpenRoot s ∧
      evaluate true (spokenExpression s) = .ok value := by
  have h : evaluate true " 2 * SQRT( 16 ) - 1" = .ok 7 := by decide +kernel
  have hall : (Text.stripped " 2 * SQRT( 16 ) - 1").any isLineEnd = false := by decide +kernel
  have hline : ∀ c ∈ Text.stripped " 2 * SQRT( 16 ) - 1", isLineEnd c = false := by
    simpa using hall
  have hopen : ¬HasOpenRoot " 2 * SQRT( 16 ) - 1" := by
    rw [← finds_openRoot]
    decide +kernel
  exact ⟨_, _, h, hline, hopen, ((rewriting_of_evaluate h hline).1 hopen).2.2⟩

/-- The root of a sum is taken to be open after the first number of the sum. -/
theorem not_rewriting_of_evaluate :
    evaluate true "sqrt(9+16)" = .ok 5 ∧
      expandSigns "sqrt(9+16)" = "sqrt(9)+16)".toList ∧
      evaluate true (expandSigns "sqrt(9+16)") = .error (.parse .mismatchedParentheses) ∧
      answerExpression "sqrt(9+16)" = .ok "sqrt(9)+16)".toList ∧
      evaluate true (spokenExpression "sqrt(9+16)") = .error (.parse .mismatchedParentheses) := by
  exact ⟨by decide +kernel, by decide +kernel, by decide +kernel, rfl, by decide +kernel⟩

end Reckoner
