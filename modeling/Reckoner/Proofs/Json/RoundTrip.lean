import Reckoner.Proofs.Json.Numbers
import Reckoner.Proofs.Json.Strings
import Reckoner.Proofs.Results

/-! Reading what was written.  A value fits into a depth if its arrays and objects are nested no
deeper, its texts are joined and its integers have not too many digits.  What fits is read again
from its text, whatever the layout. -/

namespace Reckoner.Json

/-! ### White space -/

section Space

/-- Whether JSON has `c` as white space. -/
def isSpace (c : Char) : Bool := c == ' ' || c == '\t' || c == '\n' || c == '\r'

variable {space s : Text} {c : Char}

theorem skipSpace_append (hspace : ∀ c ∈ space, isSpace c = true) (s : Text) :
    skipSpace (space ++ s) = skipSpace s :=
  List.dropWhile_append_of_pos hspace

theorem skipSpace_cons (hc : isSpace c = false) (s : Text) : skipSpace (c :: s) = c :: s :=
  List.dropWhile_cons_of_neg (by rw [← isSpace, hc]; decide)

theorem skipSpace_eq_nil (hspace : ∀ c ∈ space, isSpace c = true) : skipSpace space = [] := by
  rw [← List.append_nil space, skipSpace_append hspace]
  rfl

theorem isSpace_indentation {n : ℕ} : ∀ c ∈ '\n' :: List.replicate n ' ', isSpace c = true := by
  intro c hc
  rcases List.mem_cons.mp hc with rfl | hc
  · rfl
  · obtain ⟨-, rfl⟩ := List.mem_replicate.mp hc
    rfl

theorem isSpace_before (layout : Layout) (depth : ℕ) :
    ∀ c ∈ layout.before depth, isSpace c = true := by
  cases layout with
  | compact => simp [Layout.before]
  | indented width => exact isSpace_indentation

theorem isSpace_after (layout : Layout) (depth : ℕ) :
    ∀ c ∈ layout.after depth, isSpace c = true := by
  cases layout with
  | compact => simp [Layout.after]
  | indented width => exact isSpace_indentation

/-- What stands between two items is a comma and white space. -/
theorem exists_between (layout : Layout) (depth : ℕ) :
    ∃ gap, layout.between depth = ',' :: gap ∧ ∀ c ∈ gap, isSpace c = true := by
  cases layout with
  | compact => exact ⟨[' '], rfl, List.forall_mem_singleton.mpr rfl⟩
  | indented width => exact ⟨_, rfl, isSpace_indentation⟩

/-- No number goes on where white space, a comma or a bracket follows. -/
theorem endsNumber_cons (hc : (isSpace c || c == ',' || c == ']' || c == '}') = true) :
    EndsNumber (c :: s) := by
  intro d hd
  obtain rfl := Option.some.inj hd
  simp only [isSpace, Bool.or_eq_true, beq_iff_eq] at hc
  rcases hc with (((((rfl | rfl) | rfl) | rfl) | rfl) | rfl) | rfl
  all_goals decide

theorem endsNumber_append (hspace : ∀ c ∈ space, isSpace c = true) (hs : EndsNumber s) :
    EndsNumber (space ++ s) := by
  cases space with
  | nil => exact hs
  | cons c space =>
    refine endsNumber_cons ?_
    rw [hspace c List.mem_cons_self]
    rfl

end Space

theorem joined_cons_cons (separator t u : Text) (ts : List Text) :
    Text.joined separator (t :: u :: ts) = t ++ (separator ++ Text.joined separator (u :: ts)) := by
  simp [Text.joined, List.intercalate]

theorem joined_singleton (separator t : Text) : Text.joined separator [t] = t := by
  simp [Text.joined, List.intercalate]

/-! ### Values that fit -/

/-- A value that can be written and read again, with this depth left for arrays and objects. -/
inductive Fits : (depth : ℕ) → Value → Prop
  | null {depth} : Fits depth .null
  | boolean {depth} (value : Bool) : Fits depth (.boolean value)
  | integer {depth n} (h : (Text.ofNat n.natAbs).length ≤ maxIntegerDigits) :
      Fits depth (.integer n)
  | real {depth} (value : Double) : Fits depth (.real value)
  | text {depth s} (h : LooseText.IsJoined s) : Fits depth (.text s)
  | array {depth items} (h : ∀ v ∈ items, Fits depth v) : Fits (depth + 1) (.array items)
  | object {depth members} (hkeys : ∀ m ∈ members, LooseText.IsJoined m.1)
      (h : ∀ m ∈ members, Fits depth m.2) : Fits (depth + 1) (.object members)

theorem Fits.isJoined {depth : ℕ} {s : LooseText} : Fits depth (.text s) → s.IsJoined
  | .text h => h

theorem Fits.length_le {depth : ℕ} {n : ℤ} :
    Fits depth (.integer n) → (Text.ofNat n.natAbs).length ≤ maxIntegerDigits
  | .integer h => h

section Starts

variable {layout : Layout} {depth : ℕ}

/-- A character with which a value may start. -/
def startsValue (c : Char) : Bool := !(isSpace c || c == ']' || c == '}')

theorem startsValue_of_isDigit {c : Char} (h : c.isDigit = true) : startsValue c = true := by
  rw [startsValue, Bool.not_eq_true', ← Bool.not_eq_true]
  simp only [isSpace, Bool.or_eq_true, beq_iff_eq]
  rintro (((((rfl | rfl) | rfl) | rfl) | rfl) | rfl)
  all_goals cases h

/-- A text that starts as a value may. -/
def StartsValue (s : Text) : Prop := ∃ c t, s = c :: t ∧ startsValue c = true

theorem StartsValue.append {s : Text} (h : StartsValue s) (t : Text) : StartsValue (s ++ t) := by
  obtain ⟨c, u, rfl, hc⟩ := h
  exact ⟨c, u ++ t, rfl, hc⟩

theorem StartsValue.skipSpace {s : Text} (h : StartsValue s) : skipSpace s = s := by
  obtain ⟨c, t, rfl, hc⟩ := h
  rw [startsValue, Bool.not_eq_true', Bool.or_eq_false_iff, Bool.or_eq_false_iff] at hc
  exact skipSpace_cons hc.1.1 t

theorem StartsValue.joined {separator t : Text} {ts : List Text} (h : StartsValue t) :
    StartsValue (Text.joined separator (t :: ts)) := by
  cases ts with
  | nil => rwa [joined_singleton]
  | cons u ts =>
    rw [joined_cons_cons]
    exact h.append _

theorem startsValue_signed {negative : Bool} {s : Text}
    (h : ∃ c t, s = c :: t ∧ c.isDigit = true) : StartsValue (Double.signText negative ++ s) := by
  obtain ⟨c, t, rfl, hc⟩ := h
  cases negative with
  | false => exact ⟨c, t, rfl, startsValue_of_isDigit hc⟩
  | true => exact ⟨'-', c :: t, rfl, rfl⟩

theorem startsValue_writeAt (v : Value) : StartsValue (v.writeAt layout depth) := by
  cases v with
  | null => exact ⟨_, _, rfl, rfl⟩
  | boolean value => cases value <;> exact ⟨_, _, rfl, rfl⟩
  | integer n =>
    rw [Value.writeAt, ofInt_eq, ← List.append_nil (Text.ofNat _)]
    exact startsValue_signed (head?_append_isDigit (ofNat_ne_nil _)
      fun c hc => isDigit_of_mem_ofNat hc)
  | real value =>
    cases value with
    | nan => exact ⟨_, _, rfl, rfl⟩
    | infinite negative => cases negative <;> exact ⟨_, _, rfl, rfl⟩
    | finite negative o ho =>
      obtain ⟨d, -, hread⟩ := unsigned_write negative (shortest_exponent_eq_zero (o := o))
        (show EndsNumber [] by simp [EndsNumber])
      have := exists_digit_of_unsigned hread
      rw [List.append_nil] at this
      exact startsValue_signed this
  | text s => exact ⟨_, _, rfl, rfl⟩
  | array items =>
    rw [Value.writeAt, Layout.enclose]
    split <;> exact ⟨_, _, rfl, rfl⟩
  | object members =>
    rw [Value.writeAt, Layout.enclose]
    split <;> exact ⟨_, _, rfl, rfl⟩

end Starts

/-! ### Reading what fits -/

section Reading

variable {layout : Layout} {depth fuel : ℕ} {rest : Text}

/-- A value without quotes or brackets is a scalar. -/
theorem valueFrom_scalar {c : Char} {s : Text} (hquote : c ≠ '"') (hbracket : c ≠ '[')
    (hbrace : c ≠ '{') : valueFrom (fuel + 1) depth (c :: s) = scalar (c :: s) := by
  rw [valueFrom]
  · intro t h
    exact hquote (List.cons.inj h).1
  · intro t _ h
    exact hbracket (List.cons.inj h).1
  · intro t _ h
    exact hbrace (List.cons.inj h).1
  · intro d t _ h
    exact hbracket (List.cons.inj h).1
  · intro d t _ h
    exact hbrace (List.cons.inj h).1

theorem valueFrom_signed {negative : Bool} {s : Text} (h : ∃ c t, s = c :: t ∧ c.isDigit = true) :
    valueFrom (fuel + 1) depth (Double.signText negative ++ s) =
      scalar (Double.signText negative ++ s) := by
  obtain ⟨c, t, rfl, hc⟩ := h
  have hne (d : Char) (hd : d.isDigit = false) : c ≠ d := by
    rintro rfl
    rw [hc] at hd
    cases hd
  cases negative with
  | false => exact valueFrom_scalar (hne '"' rfl) (hne '[' rfl) (hne '{' rfl)
  | true => exact valueFrom_scalar (by decide) (by decide) (by decide)

theorem valueFrom_realText (value : Double) (hrest : EndsNumber rest) :
    valueFrom (fuel + 1) depth (realText value ++ rest) = .ok (.real value, rest) := by
  have hscalar : valueFrom (fuel + 1) depth (realText value ++ rest) =
      scalar (realText value ++ rest) := by
    cases value with
    | nan => exact valueFrom_scalar (by decide) (by decide) (by decide)
    | infinite negative =>
      cases negative <;> exact valueFrom_scalar (by decide) (by decide) (by decide)
    | finite negative o ho =>
      obtain ⟨d, -, hread⟩ := unsigned_write negative (shortest_exponent_eq_zero (o := o)) hrest
      have htext : realText (.finite negative o ho) =
          Double.signText negative ++ Layout.plain.write (shortest o) := rfl
      rw [htext, List.append_assoc]
      exact valueFrom_signed (exists_digit_of_unsigned hread)
  rw [hscalar, scalar_realText value hrest]

/-! ### Steps of the readers -/

section Steps

variable {s t u : Text} {v : Value} {items : List Value} {key : LooseText}
  {members : List (LooseText × Value)}

theorem itemsFrom_last (hv : valueFrom fuel depth s = .ok (v, t))
    (ht : skipSpace t = ']' :: rest) : itemsFrom (fuel + 1) depth s = .ok ([v], rest) := by
  rw [itemsFrom, hv]
  simp only [Except.bind, ht]

theorem itemsFrom_more (hv : valueFrom fuel depth s = .ok (v, t)) (ht : skipSpace t = ',' :: u)
    (hmore : itemsFrom fuel depth (skipSpace u) = .ok (items, rest)) :
    itemsFrom (fuel + 1) depth s = .ok (v :: items, rest) := by
  rw [itemsFrom, hv]
  simp only [Except.bind, ht, hmore, Except.map]

theorem membersFrom_last (hkey : stringBody s = .ok (key, ':' :: t))
    (hv : valueFrom fuel depth (skipSpace t) = .ok (v, u)) (hu : skipSpace u = '}' :: rest) :
    membersFrom (fuel + 1) depth ('"' :: s) = .ok ([(key, v)], rest) := by
  have hcolon : skipSpace (':' :: t) = ':' :: t := skipSpace_cons rfl t
  rw [membersFrom, hkey]
  simp only [Except.bind, hcolon, hv, hu]

theorem membersFrom_more {w : Text} (hkey : stringBody s = .ok (key, ':' :: t))
    (hv : valueFrom fuel depth (skipSpace t) = .ok (v, u)) (hu : skipSpace u = ',' :: w)
    (hmore : membersFrom fuel depth (skipSpace w) = .ok (members, rest)) :
    membersFrom (fuel + 1) depth ('"' :: s) = .ok ((key, v) :: members, rest) := by
  have hcolon : skipSpace (':' :: t) = ':' :: t := skipSpace_cons rfl t
  rw [membersFrom, hkey]
  simp only [Except.bind, hcolon, hv, hu, hmore, Except.map]

theorem valueFrom_items (hs : skipSpace s = t) (ht : StartsValue t) :
    valueFrom (fuel + 1) (depth + 1) ('[' :: s) =
      (itemsFrom fuel depth t).map fun (items, rest) => (.array items, rest) := by
  obtain ⟨c, t, rfl, hc⟩ := ht
  rw [valueFrom, hs]
  split
  case h_1 heq =>
    obtain ⟨rfl, -⟩ := List.cons.inj heq
    cases hc
  case h_2 => rfl

theorem valueFrom_array (hs : skipSpace s = t) (ht : StartsValue t)
    (hitems : itemsFrom fuel depth t = .ok (items, rest)) :
    valueFrom (fuel + 1) (depth + 1) ('[' :: s) = .ok (.array items, rest) := by
  rw [valueFrom_items hs ht, hitems]
  rfl

theorem valueFrom_object (hs : skipSpace s = t) (ht : StartsValue t)
    (hmembers : membersFrom fuel depth t = .ok (members, rest)) :
    valueFrom (fuel + 1) (depth + 1) ('{' :: s) = .ok (.object members, rest) := by
  obtain ⟨c, t, rfl, hc⟩ := ht
  rw [valueFrom, hs]
  split
  case h_1 heq =>
    obtain ⟨rfl, -⟩ := List.cons.inj heq
    cases hc
  case h_2 =>
    rw [hmembers]
    rfl

end Steps

/-! ### All values -/

/-- What it means that a value is read from its text, whatever follows it. -/
def ReadsBack (layout : Layout) (depth place : ℕ) (v : Value) : Prop :=
  ∀ fuel rest, (v.writeAt layout place).length < fuel → EndsNumber rest →
    valueFrom fuel depth (v.writeAt layout place ++ rest) = .ok (v, rest)

/-- With more fuel than the text is long there is some for the first step. -/
theorem readsBack_of_succ {place : ℕ} {v : Value}
    (h : ∀ fuel rest, (v.writeAt layout place).length < fuel + 1 → EndsNumber rest →
      valueFrom (fuel + 1) depth (v.writeAt layout place ++ rest) = .ok (v, rest)) :
    ReadsBack layout depth place v := by
  intro fuel rest hfuel hrest
  obtain ⟨fuel, rfl⟩ : ∃ f, fuel = f + 1 := ⟨fuel - 1, by omega⟩
  exact h fuel rest hfuel hrest

variable {place n : ℕ} {space : Text}

/-- The items of an array are read up to its bracket. -/
theorem itemsFrom_joined {items : List Value} (hne : items ≠ [])
    (hspace : ∀ c ∈ space, isSpace c = true) (h : ∀ v ∈ items, ReadsBack layout depth place v)
    (hfuel : (Text.joined (layout.between n) (itemTexts layout place items)).length + 1 < fuel) :
    itemsFrom fuel depth
        (Text.joined (layout.between n) (itemTexts layout place items) ++ (space ++ ']' :: rest)) =
      .ok (items, rest) := by
  induction items generalizing fuel with
  | nil => exact absurd rfl hne
  | cons v items ih =>
    obtain ⟨fuel, rfl⟩ : ∃ f, fuel = f + 1 := ⟨fuel - 1, by omega⟩
    have hv := h v List.mem_cons_self
    cases items with
    | nil =>
      rw [itemTexts, itemTexts, joined_singleton] at hfuel ⊢
      refine itemsFrom_last (hv fuel _ (by omega) (endsNumber_append hspace (endsNumber_cons rfl))) ?_
      rw [skipSpace_append hspace, skipSpace_cons rfl]
    | cons w items =>
      obtain ⟨gap, hgap, hgapSpace⟩ := exists_between layout n
      rw [itemTexts, itemTexts, joined_cons_cons, ← itemTexts, hgap] at hfuel ⊢
      rw [hgap] at ih
      simp only [List.length_append, List.length_cons] at hfuel
      rw [List.append_assoc, List.append_assoc, List.cons_append]
      refine itemsFrom_more (hv fuel _ (by omega) (endsNumber_cons rfl)) (skipSpace_cons rfl _) ?_
      have hstart : StartsValue (Text.joined (',' :: gap) (itemTexts layout place (w :: items))) := by
        rw [itemTexts]
        exact (startsValue_writeAt w).joined
      rw [skipSpace_append hgapSpace, (hstart.append _).skipSpace]
      exact ih (by simp) (fun u hu => h u (.tail _ hu)) (by omega)

theorem memberText_eq (key : LooseText) (t : Text) : stringText key ++ ": " ++ t =
    '"' :: (key.flatMap symbolText ++ '"' :: ':' :: ' ' :: t) := by
  simp [stringText]

/-- The members of an object are read up to its brace. -/
theorem membersFrom_joined {members : List (LooseText × Value)} (hne : members ≠ [])
    (hspace : ∀ c ∈ space, isSpace c = true) (hkeys : ∀ m ∈ members, LooseText.IsJoined m.1)
    (h : ∀ m ∈ members, ReadsBack layout depth place m.2)
    (hfuel : (Text.joined (layout.between n) (memberTexts layout place members)).length + 1 < fuel) :
    membersFrom fuel depth
        (Text.joined (layout.between n) (memberTexts layout place members) ++
          (space ++ '}' :: rest)) = .ok (members, rest) := by
  induction members generalizing fuel with
  | nil => exact absurd rfl hne
  | cons m members ih =>
    obtain ⟨fuel, rfl⟩ : ∃ f, fuel = f + 1 := ⟨fuel - 1, by omega⟩
    obtain ⟨key, v⟩ := m
    have hkey : key.IsJoined := hkeys _ List.mem_cons_self
    have hv : ReadsBack layout depth place v := h _ List.mem_cons_self
    have hspaceValue (t : Text) : skipSpace (' ' :: (v.writeAt layout place ++ t)) =
        v.writeAt layout place ++ t :=
      (skipSpace_append (List.forall_mem_singleton.mpr rfl : ∀ c ∈ [' '], isSpace c = true) _).trans
        ((startsValue_writeAt v).append t).skipSpace
    cases members with
    | nil =>
      rw [memberTexts, memberTexts, joined_singleton] at hfuel ⊢
      simp only [List.length_append] at hfuel
      rw [List.append_assoc, memberText_eq]
      have hread := hv fuel (space ++ '}' :: rest) (by omega)
        (endsNumber_append hspace (endsNumber_cons rfl))
      rw [← hspaceValue] at hread
      refine membersFrom_last (stringBody_string hkey _) hread ?_
      rw [skipSpace_append hspace, skipSpace_cons rfl]
    | cons m members =>
      obtain ⟨key', w⟩ := m
      obtain ⟨gap, hgap, hgapSpace⟩ := exists_between layout n
      rw [memberTexts, memberTexts, joined_cons_cons, ← memberTexts, hgap] at hfuel ⊢
      rw [hgap] at ih
      simp only [List.length_append, List.length_cons] at hfuel
      have hstart : StartsValue
          (Text.joined (',' :: gap) (memberTexts layout place ((key', w) :: members))) := by
        rw [memberTexts]
        exact (StartsValue.append ⟨_, _, rfl, rfl⟩ _).joined
      have hmore := @ih fuel (by simp) (fun u hu => hkeys u (.tail _ hu))
        (fun u hu => h u (.tail _ hu)) (by omega)
      rw [← (hstart.append _).skipSpace, ← skipSpace_append hgapSpace] at hmore
      have hread := hv fuel (',' :: (gap ++ (Text.joined (',' :: gap)
        (memberTexts layout place ((key', w) :: members)) ++ (space ++ '}' :: rest)))) (by omega)
        (endsNumber_cons rfl)
      rw [← hspaceValue] at hread
      rw [List.append_assoc, List.append_assoc, memberText_eq, List.cons_append, List.cons_append,
        List.append_assoc]
      exact membersFrom_more (stringBody_string hkey _) hread (skipSpace_cons rfl _) hmore

theorem enclose_append (layout : Layout) (n : ℕ) (opening closing : Char) {items : List Text}
    (hne : items ≠ []) (rest : Text) : layout.enclose n opening closing items ++ rest =
      opening :: (layout.before n ++ (Text.joined (layout.between n) items ++
        (layout.after n ++ closing :: rest))) := by
  simp [Layout.enclose, hne]

theorem length_enclose (layout : Layout) (n : ℕ) (opening closing : Char) {items : List Text}
    (hne : items ≠ []) : (Text.joined (layout.between n) items).length + 2 ≤
      (layout.enclose n opening closing items).length := by
  simp [Layout.enclose, hne]
  omega

/-- What fits is read from its text, whatever the layout. -/
theorem Fits.readsBack {v : Value} (h : Fits depth v) (layout : Layout) (place : ℕ) :
    ReadsBack layout depth place v := by
  induction h generalizing place with
  | null =>
    refine readsBack_of_succ fun fuel rest hfuel hrest => ?_
    exact valueFrom_scalar (by decide) (by decide) (by decide)
  | boolean value =>
    refine readsBack_of_succ fun fuel rest hfuel hrest => ?_
    cases value
    all_goals exact valueFrom_scalar (by decide) (by decide) (by decide)
  | @integer depth n hlength =>
    refine readsBack_of_succ fun fuel rest hfuel hrest => ?_
    rw [← scalar_ofInt hlength hrest, Value.writeAt, ofInt_eq, List.append_assoc]
    exact valueFrom_signed (head?_append_isDigit (ofNat_ne_nil _)
      fun c hc => isDigit_of_mem_ofNat hc)
  | real value =>
    refine readsBack_of_succ fun fuel rest hfuel hrest => ?_
    exact valueFrom_realText value hrest
  | @text depth s hs =>
    refine readsBack_of_succ fun fuel rest hfuel hrest => ?_
    show valueFrom (fuel + 1) depth ('"' :: (s.flatMap symbolText ++ ['"'] ++ rest)) = _
    rw [List.append_assoc, valueFrom, List.singleton_append, stringBody_string hs]
    rfl
  | @array depth items h ih =>
    refine readsBack_of_succ fun fuel rest hfuel hrest => ?_
    rw [Value.writeAt] at hfuel ⊢
    cases items with
    | nil =>
      show valueFrom (fuel + 1) (depth + 1) ('[' :: ']' :: rest) = _
      rw [valueFrom, skipSpace_cons rfl]
      rfl
    | cons v items =>
      have hne : itemTexts layout (place + 1) (v :: items) ≠ [] := by simp [itemTexts]
      have hstart : StartsValue
          (Text.joined (layout.between place) (itemTexts layout (place + 1) (v :: items))) := by
        rw [itemTexts]
        exact (startsValue_writeAt v).joined
      have hlength := length_enclose layout place '[' ']' hne
      rw [enclose_append _ _ _ _ hne]
      refine valueFrom_array ?_ (hstart.append _) (itemsFrom_joined (by simp)
        (isSpace_after layout place) (fun u hu => ih u hu (place + 1)) (by omega))
      rw [skipSpace_append (isSpace_before layout place), (hstart.append _).skipSpace]
  | @object depth members hkeys h ih =>
    refine readsBack_of_succ fun fuel rest hfuel hrest => ?_
    rw [Value.writeAt] at hfuel ⊢
    cases members with
    | nil =>
      show valueFrom (fuel + 1) (depth + 1) ('{' :: '}' :: rest) = _
      rw [valueFrom, skipSpace_cons rfl]
      rfl
    | cons m members =>
      have hne : memberTexts layout (place + 1) (m :: members) ≠ [] := by simp [memberTexts]
      have hstart : StartsValue
          (Text.joined (layout.between place) (memberTexts layout (place + 1) (m :: members))) := by
        rw [memberTexts]
        exact (StartsValue.append ⟨_, _, rfl, rfl⟩ _).joined
      have hlength := length_enclose layout place '{' '}' hne
      rw [enclose_append _ _ _ _ hne]
      refine valueFrom_object ?_ (hstart.append _) (membersFrom_joined (by simp)
        (isSpace_after layout place) hkeys (fun u hu => ih u hu (place + 1)) (by omega))
      rw [skipSpace_append (isSpace_before layout place), (hstart.append _).skipSpace]

/-- A value that fits is read from its text with white space after it. -/
theorem read_write {v : Value} (h : Fits maxDepth v) (layout : Layout)
    (hspace : ∀ c ∈ space, isSpace c = true) : Value.read (v.write layout ++ space) = .ok v := by
  have hrest : EndsNumber space := by
    have := endsNumber_append hspace (show EndsNumber [] by simp [EndsNumber])
    rwa [List.append_nil] at this
  have hread : valueFrom ((v.write layout ++ space).length + 1) maxDepth (v.write layout ++ space) =
      .ok (v, space) :=
    h.readsBack layout 0 _ space (by simp only [Value.write, List.length_append]; omega) hrest
  have hstart : skipSpace (v.write layout ++ space) = v.write layout ++ space :=
    ((startsValue_writeAt v).append space).skipSpace
  rw [Value.read, hstart, hread]
  simp [bind, Except.bind, skipSpace_eq_nil hspace, pure, Except.pure]

/-- An array is not read whose first item is an integer with too many digits. -/
theorem read_of_long {n : ℤ} (hlength : maxIntegerDigits < (Text.ofNat n.natAbs).length) :
    Value.read ('[' :: (Text.ofInt n ++ [']'])) = .error .numeralTooLong := by
  have hdigit : ∃ c t, Text.ofNat n.natAbs ++ [']'] = c :: t ∧ c.isDigit = true :=
    head?_append_isDigit (ofNat_ne_nil _) fun c hc => isDigit_of_mem_ofNat hc
  have hstart : StartsValue (Text.ofInt n ++ [']']) := by
    rw [ofInt_eq, List.append_assoc]
    exact startsValue_signed hdigit
  have hvalue (fuel depth : ℕ) :
      valueFrom (fuel + 1) depth (Text.ofInt n ++ [']']) = .error .numeralTooLong := by
    rw [← scalar_ofInt_of_long hlength (endsNumber_cons rfl : EndsNumber [']']), ofInt_eq,
      List.append_assoc]
    exact valueFrom_signed hdigit
  have hlong : ∃ fuel, ('[' :: (Text.ofInt n ++ [']'])).length + 1 = fuel + 3 :=
    ⟨(Text.ofInt n).length, by simp⟩
  obtain ⟨fuel, hfuel⟩ := hlong
  rw [Value.read, skipSpace_cons rfl, hfuel,
    show maxDepth = 984 + 1 from rfl, valueFrom_items hstart.skipSpace hstart, itemsFrom, hvalue]
  rfl

end Reading

end Reckoner.Json
