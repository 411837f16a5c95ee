import Mathlib.Data.List.Infix
import Reckoner.Proofs.Expression.Accepted
import Reckoner.Proofs.Phrase.OpenRoot

/-! What the rewriting finds in a text that has a value.  The words of all phrases are foreign: no
name of a constant or a function has their letters in it.  So no rule finds its phrase, no
percentage of a number is found, and no function stands before a bare number; what is found is open
roots. -/

namespace Reckoner

/-- Whether the letters that a word starts with are part of no known name. -/
def isForeign (word : Text) : Bool :=
  let stem := word.takeWhile Char.isLower
  !stem.isEmpty && knownNames.all fun name => !decide (stem <:+: name)

/-- Whether a phrase starts with a foreign word. -/
def Phrase.isForeign : Phrase → Bool
  | .word letters :: _ => Reckoner.isForeign letters
  | _ => false

theorem isForeign_of_mem : ∀ rule ∈ fillers :: Rule.all, ∀ phrase ∈ rule.phrases,
    Phrase.isForeign phrase = true := by
  decide +kernel

theorem isDigit_of_mem_knownNames : ∀ name ∈ knownNames, name.any Char.isDigit = false := by
  decide +kernel

/-! ### Letters -/

theorem letter_of_meetsLetter {a c : Char} (ha : a.isLower = true) (hc : IsPlain c)
    (h : meetsLetter a c = true) : c.toLower = a ∧ c.isAlpha = true := by
  have hcase : a.toLower = a ∧ a.toUpper.toLower = a ∧ a.toUpper.isAlpha = true := by
    have hall : ∀ n ∈ List.range' 97 26, (Char.ofNat n).toLower = Char.ofNat n ∧
        (Char.ofNat n).toUpper.toLower = Char.ofNat n ∧ (Char.ofNat n).toUpper.isAlpha = true := by
      decide
    refine forall_codes
      (p := fun a => a.toLower = a ∧ a.toUpper.toLower = a ∧ a.toUpper.isAlpha = true)
      hall (List.mem_range'_1.mpr ?_)
    have := toNat_of_isLower ha
    omega
  -- What else a small letter is met by is not plain.
  have hwide : c.toNat ∉ [0x130, 0x131, 0x212a, 0x17f] := by
    intro hmem
    have : ¬IsPlain c := forall_codes (p := fun c => ¬IsPlain c) (by decide) hmem
    exact this hc
  have hmeets : c = a ∨ c = a.toUpper := by
    simp only [List.mem_cons, List.not_mem_nil, or_false, not_or] at hwide
    simpa [meetsLetter, ha, hwide] using h
  rcases hmeets with rfl | rfl
  · exact ⟨hcase.1, Bool.or_eq_true_iff.mpr (.inr ha)⟩
  · exact hcase.2

/-- Plain characters that meet small letters are these letters in some case. -/
theorem letters_of_meets {word w : Text} (hword : ∀ a ∈ word, a.isLower = true)
    (hw : ∀ c ∈ w, IsPlain c) (h : List.Forall₂ (fun a c => meetsLetter a c = true) word w) :
    w.map Char.toLower = word ∧ ∀ c ∈ w, c.isAlpha = true := by
  induction h with
  | nil => simp
  | @cons a c word w hmeets _ ih =>
    obtain ⟨ha, hword⟩ := List.forall_mem_cons.mp hword
    obtain ⟨hc, hw⟩ := List.forall_mem_cons.mp hw
    obtain ⟨hlower, halpha⟩ := letter_of_meetsLetter ha hc hmeets
    obtain ⟨hmap, hall⟩ := ih hword hw
    exact ⟨by rw [List.map_cons, hlower, hmap], List.forall_mem_cons.mpr ⟨halpha, hall⟩⟩

/-- Where plain characters meet a word, its letters are at the start of them in some case. -/
theorem exists_letters {word w : Text} (hw : ∀ c ∈ w, IsPlain c)
    (h : List.Forall₂ (fun a c => meetsLetter a c = true) word w) :
    ∃ v u, w = v ++ u ∧ v.map Char.toLower = word.takeWhile Char.isLower ∧
      ∀ c ∈ v, c.isAlpha = true := by
  generalize hstem : word.takeWhile Char.isLower = stem
  have hlower : ∀ a ∈ stem, a.isLower = true := fun a ha =>
    List.mem_takeWhile_imp (hstem ▸ ha)
  have htake : word.take stem.length = stem := by
    rw [← hstem]
    exact (List.prefix_iff_eq_take.mp (List.takeWhile_prefix _)).symm
  have hmeets := List.forall₂_take stem.length h
  rw [htake] at hmeets
  have hplain : ∀ c ∈ w.take stem.length, IsPlain c := fun c hc => hw c (List.mem_of_mem_take hc)
  obtain ⟨hmap, halpha⟩ := letters_of_meets hlower hplain hmeets
  exact ⟨w.take stem.length, w.drop stem.length, (List.take_append_drop _ _).symm, hmap, halpha⟩

theorem normalized_of_isAlphanum {w : Text} (h : ∀ c ∈ w, c.isAlphanum = true) :
    normalized w = w := by
  induction w with
  | nil => rfl
  | cons c w ih =>
    obtain ⟨hc, hw⟩ := List.forall_mem_cons.mp h
    rw [normalized_cons, keypadForm_of_isAlphanum hc, isBlank_of_isAlphanum hc, ih hw]
    rfl

theorem normalized_of_isBlank {blanks : Text} (h : ∀ c ∈ blanks, isBlank c = true) :
    normalized blanks = [] := by
  induction blanks with
  | nil => rfl
  | cons c blanks ih =>
    obtain ⟨hc, hblanks⟩ := List.forall_mem_cons.mp h
    rw [normalized_cons, isBlank_keypadForm, hc, ih hblanks]
    rfl

/-- Rules that leave a text alone one by one leave it alone together. -/
theorem applyRules_of_forall {rules : List Rule} {s : Text} (h : ∀ rule ∈ rules, rule.apply s = s) :
    applyRules rules s = s := by
  induction rules with
  | nil => rfl
  | cons rule rules ih =>
    obtain ⟨hrule, hrules⟩ := List.forall_mem_cons.mp h
    rw [applyRules, List.foldl_cons, hrule]
    exact ih hrules

section Accepted

variable {degrees : Bool} {s t : Text} {value : Double}

theorem exists_knownName_of_append (h : evaluate degrees s = .ok value) {c : Char} {a v b : Text}
    (hs : s = a ++ (c :: v ++ b)) (hc : c.isAlpha = true) (hv : ∀ d ∈ v, d.isAlphanum = true) :
    ∃ name ∈ knownNames, (c :: v).map Char.toLower <:+: name := by
  have hw : normalized (c :: v) = c :: v :=
    normalized_of_isAlphanum (List.forall_mem_cons.mpr ⟨isAlphanum_of_isAlpha hc, hv⟩)
  refine exists_knownName h ?_ hc hv (a := normalized a) (b := normalized b)
  rw [hs, normalized_append, normalized_append, hw]

/-- A foreign word does not occur in a text that has a value. -/
theorem afterWord?_eq_none (h : evaluate degrees s = .ok value) {word : Text}
    (hword : isForeign word = true) (ht : t <:+ s) : t.afterWord? word = none := by
  cases hread : t.afterWord? word with
  | none => rfl
  | some rest =>
    exfalso
    obtain ⟨w, rfl, hmeets⟩ := afterWord?_eq_some.mp hread
    obtain ⟨a, rfl⟩ := ht
    rw [isForeign, Bool.and_eq_true, Bool.not_eq_true', List.isEmpty_eq_false_iff] at hword
    obtain ⟨hne, hforeign⟩ := hword
    have hplain : ∀ c ∈ w, IsPlain c := fun c hc => isPlain_of_evaluate h c (by simp [hc])
    obtain ⟨v, u, rfl, hmap, halpha⟩ := exists_letters hplain hmeets
    cases v with
    | nil => exact hne hmap.symm
    | cons c v =>
      obtain ⟨hc, hv⟩ := List.forall_mem_cons.mp halpha
      obtain ⟨name, hname, hin⟩ := exists_knownName_of_append h
        (b := u ++ rest) (by rw [List.append_assoc]) hc fun d hd => isAlphanum_of_isAlpha (hv d hd)
      rw [hmap] at hin
      have := List.all_eq_true.mp hforeign name hname
      simp [hin] at this

/-! ### Rules -/

theorem whole?_eq_none (h : evaluate degrees s = .ok value) {phrase : Phrase}
    (hphrase : phrase.isForeign = true) (ht : t <:+ s) : phrase.whole? t = none := by
  match phrase, hphrase with
  | .word letters :: phrase, hphrase =>
    rw [Phrase.whole?, Phrase.after?, afterWord?_eq_none h hphrase ht]
    rfl

theorem Rule.apply_eq_self (h : evaluate degrees s = .ok value) {rule : Rule}
    (hrule : rule ∈ fillers :: Rule.all) : rule.apply s = s := by
  refine substitute_eq_self fun before t ht => ?_
  rw [Phrase.reader]
  split
  · rw [Option.map_eq_none_iff, List.findSome?_eq_none_iff]
    exact fun phrase hphrase => whole?_eq_none h (isForeign_of_mem rule hrule phrase hphrase) ht
  · rfl

theorem applyRules_eq_self (h : evaluate degrees s = .ok value) {rules : List Rule}
    (hrules : ∀ rule ∈ rules, rule ∈ Rule.all) : applyRules rules s = s :=
  applyRules_of_forall fun rule hrule => Rule.apply_eq_self h (.tail _ (hrules rule hrule))

/-! ### Percentages and bare calls -/

theorem percentage_eq_none (h : evaluate degrees s = .ok value) (before : Option Char)
    (ht : t <:+ s) : percentage before t = none := by
  cases hread : percentage before t with
  | none => rfl
  | some found =>
    rw [percentage] at hread
    simp only [Option.bind_eq_bind, Option.bind_eq_some_iff] at hread
    obtain ⟨⟨n, r⟩, hn, sign, hsign, word, hword, -⟩ := hread
    obtain ⟨hnr, -⟩ := number?_eq_some hn
    have hr : r <:+ t := ⟨n, hnr.symm⟩
    have hskip : r.skipBlanks <:+ t := (skipBlanks_suffix r).trans hr
    rw [afterSign?_eq_some.mp hsign] at hskip
    have hsuffix : sign.skipBlanks <:+ s :=
      (skipBlanks_suffix sign).trans (((List.suffix_cons _ _).trans hskip).trans ht)
    rw [afterWord?_eq_none h (by decide +kernel) hsuffix] at hword
    cases hword

theorem normalized_call {a name blanks m : Text} {d : Char} (hname : ∀ c ∈ name, c.isAlpha = true)
    (hblanks : ∀ c ∈ blanks, isBlank c = true) (hd : d.isDigit = true) :
    normalized (a ++ (name ++ (blanks ++ d :: m))) =
      normalized a ++ (name ++ d :: normalized m) := by
  have hdn : d.isAlphanum = true := isAlphanum_of_isDigit hd
  rw [normalized_append, normalized_append name, normalized_append blanks,
    normalized_of_isBlank hblanks, normalized_cons, keypadForm_of_isAlphanum hdn,
    isBlank_of_isAlphanum hdn,
    normalized_of_isAlphanum fun c hc => isAlphanum_of_isAlpha (hname c hc)]
  rfl

/-- No function stands before a bare number: without the white space between them they would be a
name with a digit in it. -/
theorem call?_eq_none (h : evaluate degrees s = .ok value) (f : Function) (ht : t <:+ s) :
    call? f t = none := by
  cases hread : call? f t with
  | none => rfl
  | some found =>
    exfalso
    obtain ⟨name, n, rest⟩ := found
    obtain ⟨c, blanks, rfl, hc, hblanks, hn, hmeets⟩ := call?_eq_some hread
    obtain ⟨d, m, rfl, hd⟩ := hn.exists_cons
    obtain ⟨a, rfl⟩ := ht
    have hplain := isPlain_of_evaluate h
    simp only [List.forall_mem_append, List.forall_mem_cons] at hplain
    obtain ⟨-, hname, ⟨-, -⟩, ⟨hdp, -⟩, -⟩ := hplain
    have hlower : f.name.all Char.isLower = true := by cases f <;> decide
    obtain ⟨hmap, halpha⟩ := letters_of_meets (List.all_eq_true.mp hlower) hname hmeets
    rw [isDecimalDigit_of_isPlain hdp] at hd
    cases name with
    | nil =>
      cases f <;> cases hmap
    | cons x v =>
      obtain ⟨hx, hv⟩ := List.forall_mem_cons.mp halpha
      have hvd : ∀ e ∈ v ++ [d], e.isAlphanum = true := List.forall_mem_append.mpr
        ⟨fun e he => isAlphanum_of_isAlpha (hv e he), by simpa using isAlphanum_of_isDigit hd⟩
      have hnorm := normalized_call (a := a) (m := m ++ rest) halpha
        (List.forall_mem_cons.mpr ⟨hc, hblanks⟩) hd
      obtain ⟨known, hknown, hin⟩ := exists_knownName h
        (a := normalized a) (b := normalized (m ++ rest)) (hnorm.trans (by simp)) hx hvd
      have hmem : d.toLower ∈ known := hin.mem (List.mem_map_of_mem (by simp))
      have hnone := List.any_eq_false.mp (isDigit_of_mem_knownNames known hknown) _ hmem
      exact hnone (by rw [isDigit_toLower, hd])

theorem bareCall_eq_none (h : evaluate degrees s = .ok value) (before : Option Char)
    (ht : t <:+ s) : bareCall before t = none := by
  rw [bareCall]
  split
  · rw [Option.map_eq_none_iff, List.findSome?_eq_none_iff]
    exact fun f _ => call?_eq_none h f ht
  · rfl

theorem expandSigns_eq (h : evaluate degrees s = .ok value) :
    expandSigns s = substitute openRoot s := by
  rw [expandSigns, substitute_eq_self fun before t ht => percentage_eq_none h before ht]

end Accepted

end Reckoner
