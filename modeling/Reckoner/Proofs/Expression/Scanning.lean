import Reckoner.Proofs.Expression.Conversion
import Reckoner.Proofs.Text.Plain
import Reckoner.Proofs.Text.Runs

/-! The scanner as a relation.  `Scanned position s tokens` says of a text how it is cut into runs
and signs; a proof about all texts that have tokens is an induction on it. -/

namespace Reckoner

/-- The text `s` from `position` on has these tokens. -/
inductive Scanned : (position : Nat) → Text → List Token → Prop
  | nil {position} : Scanned position [] []
  | blank {position c s tokens} (h : isBlank (keypadForm c) = true) :
      Scanned (position + 1) s tokens → Scanned position (c :: s) tokens
  | number {position c run s tokens} (h : startsNumber c (run ++ s) = true)
      (hrun : ∀ d ∈ run, isNumeral d = true) (hend : ∀ d ∈ s.head?, isNumeral d = false)
      (hpoint : (c :: run).count '.' ≤ 1) : Scanned (position + (c :: run).length) s tokens →
      Scanned position (c :: run ++ s) (⟨.number (literalValue (c :: run)), position⟩ :: tokens)
  | name {position c run s tokens} (h : c.isAlpha = true)
      (hrun : ∀ d ∈ run, d.isAlphanum = true) (hend : ∀ d ∈ s.head?, d.isAlphanum = false) :
      Scanned (position + (c :: run).length) s tokens →
      Scanned position (c :: run ++ s) (⟨.name ((c :: run).map Char.toLower), position⟩ :: tokens)
  | sign {position c s tokens item} (h : Item.ofSign? (keypadForm c) = some item) :
      Scanned (position + 1) s tokens → Scanned position (c :: s) (⟨item, position⟩ :: tokens)

section Scanning

variable {position : Nat} {s : Text} {tokens : List Token}

theorem keypadForm_of_startsNumber {c : Char} {rest : Text}
    (h : startsNumber (keypadForm c) rest = true) : keypadForm c = c :=
  keypadForm_eq_self (p := fun c => startsNumber c rest) ⟨rfl, rfl, rfl⟩ h

theorem keypadForm_of_isAlpha {c : Char} (h : (keypadForm c).isAlpha = true) :
    keypadForm c = c :=
  keypadForm_eq_self (p := Char.isAlpha) ⟨rfl, rfl, rfl⟩ h

/-- What the scanner reads is so cut. -/
theorem scanned_of_scanFrom (h : scanFrom position s = .ok tokens) : Scanned position s tokens := by
  fun_induction scanFrom position s generalizing tokens
  case case1 =>
    obtain rfl := Except.ok.inj h
    exact .nil
  case case2 hb ih => exact .blank hb (ih h)
  case case4 position c rest sign hb hn literal hpoint ih =>
    obtain ⟨tokens, hrest, rfl⟩ := map_eq_ok h
    have hc : sign = c := keypadForm_of_startsNumber hn
    rw [hc, ← List.takeWhile_append_dropWhile (p := isNumeral) (l := rest)] at hn
    have := Scanned.number hn (fun d hd => List.mem_takeWhile_imp hd) head?_dropWhile_eq_false
      (Nat.le_of_not_lt hpoint) (ih hrest)
    rwa [List.cons_append, List.takeWhile_append_dropWhile] at this
  case case5 position c rest sign hb hn ha word ih =>
    obtain ⟨tokens, hrest, rfl⟩ := map_eq_ok h
    have hc : sign = c := keypadForm_of_isAlpha ha
    rw [hc] at ha
    have := Scanned.name ha (fun d hd => List.mem_takeWhile_imp hd) head?_dropWhile_eq_false
      (ih hrest)
    rwa [List.cons_append, List.takeWhile_append_dropWhile] at this
  case case6 hitem ih =>
    obtain ⟨tokens, hrest, rfl⟩ := map_eq_ok h
    exact .sign hitem (ih hrest)
  case case3 | case7 => cases h

theorem isNumeral_of_startsNumber {c : Char} {rest : Text} (h : startsNumber c rest = true) :
    isNumeral c = true := by
  rw [startsNumber, Bool.or_eq_true, Bool.and_eq_true] at h
  rw [isNumeral, Bool.or_eq_true]
  exact h.imp_right And.left

theorem startsNumber_of_isNumeral {c : Char} {rest : Text} (h : isNumeral c = false) :
    startsNumber c rest = false := by
  cases hs : startsNumber c rest with
  | false => rfl
  | true =>
    rw [isNumeral_of_startsNumber hs] at h
    cases h

/-- What follows a run has no part in whether a number starts with it. -/
theorem startsNumber_append {c : Char} {run : Text} (h : startsNumber c run = true) (s : Text) :
    startsNumber c (run ++ s) = true := by
  cases run with
  | nil =>
    have hc : c.isDigit = true := by simpa [startsNumber] using h
    rw [startsNumber, hc, Bool.true_or]
  | cons d run => exact h

theorem startsNumber_takeWhile {c : Char} {rest : Text} (h : startsNumber c rest = true) :
    startsNumber c (rest.takeWhile isNumeral) = true := by
  cases rest with
  | nil => exact h
  | cons d rest =>
    cases hd : isNumeral d with
    | true => rwa [List.takeWhile_cons_of_pos hd]
    | false =>
      have hdigit : d.isDigit = false := (Bool.or_eq_false_iff.mp hd).1
      rw [List.takeWhile_cons_of_neg (by simp [hd])]
      simpa [startsNumber, hdigit] using h

theorem mem_of_ofSign? {c : Char} {item : Item} (h : Item.ofSign? c = some item) :
    c ∈ "(),!%+-*/^".toList := by
  rw [Item.ofSign?.eq_def] at h
  split at h
  case h_6 =>
    obtain ⟨op, hop, -⟩ := Option.map_eq_some_iff.mp h
    rw [Operator.ofSymbol?.eq_def] at hop
    split at hop <;> first | decide | cases hop
  all_goals decide

/-- A sign is no white space and starts no run, so it is read by itself. -/
theorem sign_of_ofSign? {c : Char} {item : Item} (h : Item.ofSign? c = some item) :
    isBlank c = false ∧ isNumeral c = false ∧ c.isAlpha = false ∧ c.toNat < 128 := by
  have hall : "(),!%+-*/^".toList.all fun c =>
      !isBlank c && !isNumeral c && !c.isAlpha && decide (c.toNat < 128) := by decide
  simpa [and_assoc] using List.all_eq_true.mp hall c (mem_of_ofSign? h)

/-! ### The scanner at one token -/

section Equations

variable {c : Char} {rest : Text} {item : Item}

theorem scanFrom_blank (h : isBlank (keypadForm c) = true) :
    scanFrom position (c :: rest) = scanFrom (position + 1) rest := by
  rw [scanFrom.eq_def]
  simp only [h, if_true]

theorem scanFrom_number (h : startsNumber c rest = true) : scanFrom position (c :: rest) =
    if 1 < (c :: rest.takeWhile isNumeral).count '.' then
      .error ⟨.invalidNumber, c :: rest.takeWhile isNumeral, position⟩
    else
      (scanFrom (position + (c :: rest.takeWhile isNumeral).length) (rest.dropWhile isNumeral)).map
        (⟨.number (literalValue (c :: rest.takeWhile isNumeral)), position⟩ :: ·) := by
  have hc := isNumeral_of_startsNumber h
  rw [scanFrom.eq_def]
  simp only [keypadForm_of_isNumeral hc, isBlank_of_isNumeral hc, h, if_true, if_false,
    Bool.false_eq_true]

theorem scanFrom_name (h : c.isAlpha = true) : scanFrom position (c :: rest) =
    (scanFrom (position + (c :: rest.takeWhile Char.isAlphanum).length)
      (rest.dropWhile Char.isAlphanum)).map
        (⟨.name ((c :: rest.takeWhile Char.isAlphanum).map Char.toLower), position⟩ :: ·) := by
  have hc := isAlphanum_of_isAlpha h
  rw [scanFrom.eq_def]
  simp only [keypadForm_of_isAlphanum hc, isBlank_of_isAlphanum hc,
    startsNumber_of_isNumeral (isNumeral_of_isAlpha h), h, if_true, if_false, Bool.false_eq_true]

theorem scanFrom_sign (h : Item.ofSign? (keypadForm c) = some item) : scanFrom position (c :: rest) =
    (scanFrom (position + 1) rest).map (⟨item, position⟩ :: ·) := by
  obtain ⟨hb, hn, ha, -⟩ := sign_of_ofSign? h
  rw [scanFrom.eq_def]
  simp only [hb, startsNumber_of_isNumeral hn, ha, h, if_false, Bool.false_eq_true]

theorem scanFrom_unexpected (hb : isBlank c = false) (hn : startsNumber c rest = false)
    (ha : c.isAlpha = false) (hk : keypadForm c = c) (h : Item.ofSign? c = none) :
    scanFrom position (c :: rest) = .error ⟨.unexpectedCharacter, [c], position⟩ := by
  rw [scanFrom.eq_def]
  simp only [hk, hb, hn, ha, h, if_false, Bool.false_eq_true]

end Equations

theorem Scanned.scanFrom_eq (h : Scanned position s tokens) :
    scanFrom position s = .ok tokens := by
  induction h with
  | nil => rw [scanFrom.eq_def]
  | blank hb _ ih => rw [scanFrom_blank hb, ih]
  | number h hrun hend hpoint _ ih =>
    obtain ⟨htake, hdrop⟩ := takeWhile_run hrun hend
    rw [List.cons_append, scanFrom_number h, htake, hdrop, if_neg (Nat.not_lt.mpr hpoint), ih]
    rfl
  | name h hrun hend _ ih =>
    obtain ⟨htake, hdrop⟩ := takeWhile_run hrun hend
    rw [List.cons_append, scanFrom_name h, htake, hdrop, ih]
    rfl
  | sign h _ ih =>
    rw [scanFrom_sign h, ih]
    rfl

theorem scanFrom_eq_ok : scanFrom position s = .ok tokens ↔ Scanned position s tokens :=
  ⟨scanned_of_scanFrom, Scanned.scanFrom_eq⟩

/-! ### What all texts that have tokens satisfy -/

/-- Whether a character may occur in a text that has tokens. -/
def isScannable (c : Char) : Bool :=
  isBlank (keypadForm c) || isNumeral c || c.isAlphanum || (Item.ofSign? (keypadForm c)).isSome

theorem isPlain_of_isScannable {c : Char} (h : isScannable c = true) : IsPlain c := by
  simp only [isScannable, Bool.or_eq_true, Option.isSome_iff_exists] at h
  rcases h with ((h | h) | h) | ⟨item, h⟩
  · exact isPlain_of_keypadForm (isPlain_of_isBlank h)
  · exact isPlain_of_isNumeral h
  · exact isPlain_of_isAlphanum h
  · obtain ⟨-, -, -, hlt⟩ := sign_of_ofSign? h
    exact isPlain_of_keypadForm (.inl hlt)

theorem Scanned.isScannable (h : Scanned position s tokens) : ∀ c ∈ s, isScannable c = true := by
  induction h with
  | nil => simp
  | blank hb _ ih => exact List.forall_mem_cons.mpr ⟨by simp [Reckoner.isScannable, hb], ih⟩
  | number h hrun _ _ _ ih =>
    refine List.forall_mem_append.mpr ⟨List.forall_mem_cons.mpr ⟨?_, fun d hd => ?_⟩, ih⟩
    · simp [Reckoner.isScannable, isNumeral_of_startsNumber h]
    · simp [Reckoner.isScannable, hrun d hd]
  | name h hrun _ _ ih =>
    refine List.forall_mem_append.mpr ⟨List.forall_mem_cons.mpr ⟨?_, fun d hd => ?_⟩, ih⟩
    · simp [Reckoner.isScannable, isAlphanum_of_isAlpha h]
    · simp [Reckoner.isScannable, hrun d hd]
  | sign h _ ih => exact List.forall_mem_cons.mpr ⟨by simp [Reckoner.isScannable, h], ih⟩

/-- A minus is read as an operator. -/
theorem Scanned.item_ne_negation (h : Scanned position s tokens) :
    ∀ t ∈ tokens, t.item ≠ .negation := by
  induction h with
  | nil => simp
  | blank _ _ ih => exact ih
  | number _ _ _ _ _ ih | name _ _ _ _ ih => exact List.forall_mem_cons.mpr ⟨nofun, ih⟩
  | @sign position c s tokens item h _ ih =>
    refine List.forall_mem_cons.mpr ⟨?_, ih⟩
    rintro rfl
    rw [Item.ofSign?.eq_def] at h
    split at h
    case h_6 => obtain ⟨op, -, hop⟩ := Option.map_eq_some_iff.mp h; cases hop
    all_goals cases h

/-- Where characters that satisfy `p` stand at the start of `run ++ rest` and `rest` starts with
none, they stand at the start of `run`. -/
theorem eq_append_of_run {p : Char → Bool} {w b run rest : Text} (h : w ++ b = run ++ rest)
    (hw : ∀ c ∈ w, p c = true) (hend : ∀ d ∈ rest.head?, p d = false) : ∃ v, run = w ++ v := by
  rcases List.append_eq_append_iff.mp h with ⟨v, hrun, -⟩ | ⟨v, hv, hrest⟩
  · exact ⟨v, hrun⟩
  · cases v with
    | nil => exact ⟨[], by simp [hv]⟩
    | cons d v =>
      have hd : p d = true := hw d (by simp [hv])
      rw [hend d (by simp [hrest])] at hd
      cases hd

/-- Letters and digits side by side, of which the first is a letter, are part of a name. -/
theorem Scanned.exists_name {c : Char} {a v b : Text} (h : Scanned position s tokens)
    (hs : s = a ++ (c :: v ++ b)) (hc : c.isAlpha = true) (hv : ∀ d ∈ v, d.isAlphanum = true) :
    ∃ word place, ⟨.name word, place⟩ ∈ tokens ∧ (c :: v).map Char.toLower <:+: word := by
  have hcn : c.isAlphanum = true := isAlphanum_of_isAlpha hc
  induction h generalizing a with
  | nil => simp at hs
  | blank hb _ ih =>
    cases a with
    | nil =>
      obtain ⟨rfl, -⟩ := List.cons.inj hs
      simp [keypadForm_of_isAlphanum hcn, isBlank_of_isAlphanum hcn] at hb
    | cons x a => exact ih (List.cons.inj hs).2
  | sign hsign _ ih =>
    cases a with
    | nil =>
      obtain ⟨rfl, -⟩ := List.cons.inj hs
      obtain ⟨-, -, ha, -⟩ := sign_of_ofSign? hsign
      simp [keypadForm_of_isAlphanum hcn, hc] at ha
    | cons x a =>
      obtain ⟨word, place, hmem, hin⟩ := ih (List.cons.inj hs).2
      exact ⟨word, place, .tail _ hmem, hin⟩
  | @number position d run s tokens h hrun hend hpoint _ ih =>
    -- No letter belongs to the run, so what is looked for stands behind it.
    have hlater : ∃ a', s = a' ++ (c :: v ++ b) := by
      rcases List.append_eq_append_iff.mp hs with ⟨a', -, hrest⟩ | ⟨run', hrun', hrest⟩
      · exact ⟨a', hrest⟩
      · cases run' with
        | nil => exact ⟨[], hrest.symm⟩
        | cons x run' =>
          obtain ⟨rfl, -⟩ := List.cons.inj hrest
          have hn : isNumeral c = true := by
            have : c ∈ d :: run := by simp [hrun']
            rcases List.mem_cons.mp this with rfl | hmem
            · exact isNumeral_of_startsNumber h
            · exact hrun c hmem
          rw [isNumeral_of_isAlpha hc] at hn
          cases hn
    obtain ⟨a', hs'⟩ := hlater
    obtain ⟨word, place, hmem, hin⟩ := ih hs'
    exact ⟨word, place, .tail _ hmem, hin⟩
  | @name position d run s tokens h hrun hend _ ih =>
    rcases List.append_eq_append_iff.mp hs with ⟨a', -, hrest⟩ | ⟨run', hrun', hrest⟩
    · obtain ⟨word, place, hmem, hin⟩ := ih hrest
      exact ⟨word, place, .tail _ hmem, hin⟩
    · obtain ⟨u, rfl⟩ := eq_append_of_run (p := Char.isAlphanum) hrest
        (List.forall_mem_cons.mpr ⟨hcn, hv⟩) hend
      refine ⟨(d :: run).map Char.toLower, position, .head _, a.map Char.toLower,
        u.map Char.toLower, ?_⟩
      rw [hrun', List.map_append, List.map_append, List.append_assoc]

/-! ### Lower case -/

theorem startsNumber_map_toLower (c : Char) (rest : Text) :
    startsNumber c (rest.map Char.toLower) = startsNumber c rest := by
  cases rest with
  | nil => rfl
  | cons d rest => simp [startsNumber, isDigit_toLower]

theorem head?_map_toLower {p : Char → Bool} {rest : Text} (h : ∀ d, p d.toLower = p d)
    (hend : ∀ d ∈ rest.head?, p d = false) :
    ∀ d ∈ (rest.map Char.toLower).head?, p d = false := by
  cases rest with
  | nil => simp
  | cons d rest =>
    rintro _ ⟨⟩
    rw [h]
    exact hend d rfl

theorem map_toLower_of_isNumeral {run : Text} (h : ∀ d ∈ run, isNumeral d = true) :
    run.map Char.toLower = run := by
  rw [List.map_congr_left fun d hd => toLower_of_isNumeral (h d hd), List.map_id']

theorem map_toLower_toLower (run : Text) :
    (run.map Char.toLower).map Char.toLower = run.map Char.toLower := by
  rw [List.map_map]
  exact List.map_congr_left fun d _ => toLower_toLower d

/-- A text in lower case has the same tokens. -/
theorem Scanned.map_toLower (h : Scanned position s tokens) :
    Scanned position (s.map Char.toLower) tokens := by
  induction h with
  | nil => exact .nil
  | blank hb _ ih =>
    refine .blank ?_ ih
    rw [keypadForm_toLower, isBlank_toLower, hb]
  | @number position c run s tokens h hrun hend hpoint _ ih =>
    have hc := isNumeral_of_startsNumber h
    rw [List.map_append, map_toLower_of_isNumeral (List.forall_mem_cons.mpr ⟨hc, hrun⟩)]
    refine .number ?_ hrun (head?_map_toLower isNumeral_toLower hend) hpoint ih
    rw [← h, ← startsNumber_map_toLower c (run ++ s), List.map_append,
      map_toLower_of_isNumeral hrun]
  | @name position c run s tokens h hrun hend _ ih =>
    have hname : Scanned position (c.toLower :: run.map Char.toLower ++ s.map Char.toLower)
        (⟨.name ((c.toLower :: run.map Char.toLower).map Char.toLower), position⟩ :: tokens) := by
      refine .name ?_ (fun d hd => ?_) (head?_map_toLower isAlphanum_toLower hend) ?_
      · rw [isAlpha_toLower, h]
      · obtain ⟨e, he, rfl⟩ := List.mem_map.mp hd
        rw [isAlphanum_toLower, hrun e he]
      · simpa using ih
    rwa [← List.map_cons, map_toLower_toLower, ← List.map_append] at hname
  | sign h _ ih =>
    refine .sign ?_ ih
    rw [ofSign?_toLower, h]

end Scanning

end Reckoner
