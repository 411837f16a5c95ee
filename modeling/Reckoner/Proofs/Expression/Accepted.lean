import Reckoner.Proofs.Expression.Conservation
import Reckoner.Proofs.Expression.Scanning
import Reckoner.Proofs.Expression.Tree
import Reckoner.Proofs.Text.Unspaced

/-! The texts that have a value.  Each of their names is known, their parentheses are balanced, and
neither white space nor case plays a part in their value. -/

namespace Reckoner

/-- The names of constants and functions. -/
def knownNames : List Text := "pi".toList :: "e".toList :: Function.all.map Function.name

/-! ### Names -/

theorem mem_knownNames_of_constant? {word : Text} {value : Double}
    (h : constant? word = some value) : word ∈ knownNames := by
  rw [constant?] at h
  split at h
  case isTrue hw => simp [knownNames, hw]
  case isFalse =>
    split at h
    case isTrue hw => simp [knownNames, hw]
    case isFalse => cases h

theorem mem_knownNames_of_named? {word : Text} {f : Function} (h : Function.named? word = some f) :
    word ∈ knownNames := by
  have hname : f.name = word := by simpa using List.find?_some h
  have hmem : f ∈ Function.all := List.mem_of_find?_eq_some h
  rw [← hname]
  exact .tail _ (.tail _ (List.mem_map_of_mem hmem))

theorem Tree.named_of_eval {degrees : Bool} {t : Tree} {value : Double}
    (h : t.eval degrees = .ok value) {word : Text} {position : Int}
    (hmem : ⟨.name word, position⟩ ∈ t.postorder) : ∃ f, Function.named? word = some f := by
  induction t generalizing value with
  | number => simp [postorder] at hmem
  | binary op place left right ihl ihr =>
    obtain ⟨a, ha, h⟩ := bind_eq_ok h
    obtain ⟨b, hb, -⟩ := bind_eq_ok h
    simp only [postorder, List.mem_append, List.mem_singleton] at hmem
    rcases hmem with (hmem | hmem) | hmem
    · exact ihl ha hmem
    · exact ihr hb hmem
    · cases hmem
  | suffixed mark place operand ih | negated place operand ih =>
    obtain ⟨a, ha, -⟩ := bind_eq_ok h
    simp only [postorder, List.mem_append, List.mem_singleton] at hmem
    rcases hmem with hmem | hmem
    · exact ih ha hmem
    · cases hmem
  | call name place operand ih =>
    obtain ⟨a, ha, hcall⟩ := bind_eq_ok h
    simp only [postorder, List.mem_append, List.mem_singleton] at hmem
    rcases hmem with hmem | hmem
    · exact ih ha hmem
    · cases hmem
      cases hf : Function.named? word with
      | some f => exact ⟨f, rfl⟩
      | none => simp [hf, throw, throwThe, MonadExceptOf.throw] at hcall

theorem mem_converted {tokens : List Token} {previous : Option Item} {word : Text} {position : Int}
    (hw : constant? word = none) (hmem : ⟨.name word, position⟩ ∈ tokens) :
    ⟨.name word, position⟩ ∈ converted previous tokens := by
  induction tokens generalizing previous with
  | nil => cases hmem
  | cons token tokens ih =>
    rw [converted, List.mem_append]
    rcases List.mem_cons.mp hmem with rfl | hmem
    · exact .inl (by simp [Token.converted, hw])
    · exact .inr (ih hmem)

section Accepted

variable {degrees : Bool} {s t : Text} {value : Double}

/-- A text has a value if it has tokens, they have a postfix form, and that has a value. -/
theorem evaluate_eq_ok : evaluate degrees s = .ok value ↔
    ∃ tokens output, scan (normalized s) = .ok tokens ∧ toPostfix tokens = .ok output ∧
      valueOf degrees output = .ok value := by
  cases hs : scan (normalized s) with
  | error error => simp [evaluate, explain, hs, bind, Except.bind]
  | ok tokens =>
    cases hp : toPostfix tokens with
    | error error => simp [evaluate, explain, hs, hp, bind, Except.bind, Except.mapError]
    | ok output =>
      cases hv : valueOf degrees output with
      | error error => simp [evaluate, explain, hs, hp, hv, bind, Except.bind, Except.mapError]
      | ok v => simp [evaluate, explain, hs, hp, hv, bind, Except.bind, Except.mapError]

/-- Texts that differ in white space have the same value. -/
theorem evaluate_congr (h : Text.unspaced s = Text.unspaced t) :
    evaluate degrees s = .ok value ↔ evaluate degrees t = .ok value := by
  rw [evaluate_eq_ok, evaluate_eq_ok, normalized_congr h]

/-- Letters and digits side by side in a text that has a value are part of a known name. -/
theorem exists_knownName (h : evaluate degrees s = .ok value) {c : Char} {a v b : Text}
    (hs : normalized s = a ++ (c :: v ++ b)) (hc : c.isAlpha = true)
    (hv : ∀ d ∈ v, d.isAlphanum = true) :
    ∃ name ∈ knownNames, (c :: v).map Char.toLower <:+: name := by
  obtain ⟨tokens, output, hscan, hp, hvalue⟩ := evaluate_eq_ok.mp h
  obtain ⟨word, place, hmem, hin⟩ := (scanned_of_scanFrom hscan).exists_name hs hc hv
  refine ⟨word, ?_, hin⟩
  cases hw : constant? word with
  | some value => exact mem_knownNames_of_constant? hw
  | none =>
    obtain ⟨tree, rfl, htree⟩ := Tree.exists_of_valueOf hvalue
    have hout := (toPostfix_perm hp).mem_iff.mpr (mem_converted hw hmem)
    obtain ⟨f, hf⟩ := Tree.named_of_eval htree hout
    exact mem_knownNames_of_named? hf

theorem isScannable_of_keypadForm {c : Char} (h : isScannable (keypadForm c) = true) :
    isScannable c = true := by
  rcases keypadForm_eq_self_or c with hc | hc
  · rwa [hc] at h
  · rw [isScannable, Bool.or_eq_true]
    right
    rcases hc with hc | hc | hc
    all_goals rw [hc]; rfl

theorem isScannable_of_evaluate (h : evaluate degrees s = .ok value) :
    ∀ c ∈ s, isScannable c = true := by
  intro c hc
  obtain ⟨tokens, -, hscan, -⟩ := evaluate_eq_ok.mp h
  cases hb : isBlank (keypadForm c) with
  | true => simp [isScannable, hb]
  | false =>
    refine isScannable_of_keypadForm ((scanned_of_scanFrom hscan).isScannable _ ?_)
    rw [normalized, Text.unspaced, List.mem_filter]
    exact ⟨List.mem_map_of_mem hc, by simp [hb]⟩

theorem isPlain_of_evaluate (h : evaluate degrees s = .ok value) : ∀ c ∈ s, IsPlain c :=
  fun c hc => isPlain_of_isScannable (isScannable_of_evaluate h c hc)

/-! ### Parentheses -/

/-- How many more parentheses an item closes than it opens. -/
def Item.excess : Item → Int
  | .opening => -1
  | .closing => 1
  | _ => 0

theorem excess_of_ofSign? {c : Char} {item : Item} (h : Item.ofSign? (keypadForm c) = some item) :
    Text.excess [c] = item.excess := by
  have hall : "(),!%+-*/^".toList.all fun c =>
      (Item.ofSign? c).all fun item => Text.excess [c] == item.excess := by decide
  have hc := List.all_eq_true.mp hall _ (mem_of_ofSign? h)
  rw [h, Option.all_some, beq_iff_eq] at hc
  rw [← hc, ← excess_map_keypadForm [c]]
  rfl

/-- A text closes as many more parentheses than it opens as its tokens do, which is as many as are
open before them if they are balanced with these. -/
theorem Scanned.excess_eq {position depth : Nat} {tokens : List Token}
    (h : Scanned position s tokens) (hb : balancedFrom depth tokens = true) :
    Text.excess s = depth := by
  induction h generalizing depth with
  | nil =>
    obtain rfl : depth = 0 := by simpa [balancedFrom] using hb
    rfl
  | @blank position c s tokens hblank _ ih =>
    have hc : Text.excess [c] = 0 :=
      Text.excess_eq_zero_of_forall (p := fun c => isBlank (keypadForm c)) (by decide)
        (by simpa using hblank)
    rw [Text.excess_cons, hc, ih hb, Int.zero_add]
  | @number position c run s tokens h hrun _ _ _ ih =>
    have hrun : Text.excess (c :: run) = 0 :=
      Text.excess_eq_zero_of_forall (p := isNumeral) (by decide)
        (List.forall_mem_cons.mpr ⟨isNumeral_of_startsNumber h, hrun⟩)
    rw [Text.excess_append, hrun, ih hb, Int.zero_add]
  | @name position c run s tokens h hrun _ _ ih =>
    have hrun : Text.excess (c :: run) = 0 :=
      Text.excess_eq_zero_of_forall (p := Char.isAlphanum) (by decide)
        (List.forall_mem_cons.mpr ⟨isAlphanum_of_isAlpha h, hrun⟩)
    rw [Text.excess_append, hrun, ih hb, Int.zero_add]
  | @sign position c s tokens item h _ ih =>
    rw [Text.excess_cons, excess_of_ofSign? h]
    cases item with
    | opening =>
      have : Text.excess s = (depth + 1 : Nat) := ih hb
      rw [Item.excess, this]
      omega
    | closing =>
      obtain ⟨hpos, hb⟩ : 0 < depth ∧ balancedFrom (depth - 1) tokens = true := by
        simpa [balancedFrom] using hb
      rw [Item.excess, ih hb]
      omega
    | comma =>
      obtain ⟨-, hb⟩ : 0 < depth ∧ balancedFrom depth tokens = true := by
        simpa [balancedFrom] using hb
      rw [ih hb]
      exact Int.zero_add _
    | _ =>
      have : Text.excess s = depth := ih hb
      rw [this]
      exact Int.zero_add _

theorem excess_of_evaluate (h : evaluate degrees s = .ok value) : Text.excess s = 0 := by
  obtain ⟨tokens, output, hscan, hp, -⟩ := evaluate_eq_ok.mp h
  rw [← excess_normalized]
  exact (scanned_of_scanFrom hscan).excess_eq (balancedFrom_of_toPostfix hp)

/-! ### Lower case -/

theorem lowerForm_of_isPlain {c : Char} (h : IsPlain c) : lowerForm c = [c.toLower] ∧ c ≠ 'Σ' := by
  rcases h with h | h
  · refine ⟨if_pos h, ?_⟩
    rintro rfl
    exact absurd h (by decide)
  · exact forall_codes (p := fun c => lowerForm c = [c.toLower] ∧ c ≠ 'Σ') (by decide +kernel) h

theorem lower_eq_map (h : ∀ c ∈ s, IsPlain c) : lower s = s.map Char.toLower := by
  have hafter : ∀ cased, lowerAfter cased s = s.map Char.toLower := by
    induction s with
    | nil => exact fun _ => rfl
    | cons c s ih =>
      intro cased
      obtain ⟨hc, hs⟩ := List.forall_mem_cons.mp h
      obtain ⟨hform, hsigma⟩ := lowerForm_of_isPlain hc
      rw [lowerAfter, if_neg hsigma, hform, ih hs]
      rfl
  exact hafter false

theorem normalized_map_toLower (s : Text) :
    normalized (s.map Char.toLower) = (normalized s).map Char.toLower := by
  induction s with
  | nil => rfl
  | cons c s ih =>
    rw [List.map_cons, normalized_cons, normalized_cons, keypadForm_toLower, isBlank_toLower, ih]
    split <;> rfl

/-- A text in lower case has the same value. -/
theorem evaluate_map_toLower (h : evaluate degrees s = .ok value) :
    evaluate degrees (s.map Char.toLower) = .ok value := by
  obtain ⟨tokens, output, hscan, hp, hvalue⟩ := evaluate_eq_ok.mp h
  refine evaluate_eq_ok.mpr ⟨tokens, output, ?_, hp, hvalue⟩
  rw [normalized_map_toLower]
  exact scanFrom_eq_ok.mpr (scanFrom_eq_ok.mp hscan).map_toLower

end Accepted

end Reckoner
