import Reckoner.Proofs.Json.RoundTrip

/-! The characters of written values.  All of them are printable ASCII characters, but for the line
feeds of a layout that puts items on lines of their own. -/

namespace Reckoner.Json

variable {layout : Layout} {depth : ℕ} {s t : Text}

/-! ### Visible texts -/

/-- Whether `c` is a printable ASCII character. -/
def isVisible (c : Char) : Bool := 0x20 ≤ c.toNat && c.toNat < 0x7f

/-- A text of printable ASCII characters. -/
def Visible (s : Text) : Prop := ∀ c ∈ s, isVisible c = true

theorem visible_of_all (h : s.all isVisible = true) : Visible s := List.all_eq_true.mp h

theorem Visible.cons {c : Char} (hc : isVisible c = true) (h : Visible s) : Visible (c :: s) :=
  List.forall_mem_cons.mpr ⟨hc, h⟩

theorem Visible.append (h : Visible s) (h' : Visible t) : Visible (s ++ t) :=
  List.forall_mem_append.mpr ⟨h, h'⟩

theorem visible_replicate {c : Char} (hc : isVisible c = true) (n : ℕ) :
    Visible (List.replicate n c) := by
  intro d hd
  rw [(List.mem_replicate.mp hd).2]
  exact hc

theorem Visible.ne_return (h : Visible s) : ∀ c ∈ s, c ≠ '\r' := by
  rintro c hc rfl
  cases h '\r' hc

theorem isVisible_of_isDigit {c : Char} (h : c.isDigit = true) : isVisible c = true := by
  rw [Char.isDigit, Bool.and_eq_true, decide_eq_true_iff, decide_eq_true_iff] at h
  have hlow : 48 ≤ c.toNat := UInt32.le_iff_toNat_le.mp h.1
  have hhigh : c.toNat ≤ 57 := UInt32.le_iff_toNat_le.mp h.2
  rw [isVisible, Bool.and_eq_true, decide_eq_true_iff, decide_eq_true_iff]
  omega

/-! ### Numbers -/

theorem visible_ofNat (n : ℕ) : Visible (Text.ofNat n) :=
  fun _ hc => isVisible_of_isDigit (isDigit_of_mem_ofNat hc)

theorem visible_signText (negative : Bool) : Visible (Double.signText negative) := by
  cases negative
  · exact List.forall_mem_nil _
  · exact visible_of_all rfl

theorem visible_ofInt (n : ℤ) : Visible (Text.ofInt n) := by
  rw [ofInt_eq]
  exact (visible_signText _).append (visible_ofNat _)

theorem visible_withPoint (h : Visible s) (places : ℕ) : Visible (Decimal.withPoint s places) := by
  have hpadded := (visible_replicate (c := '0') rfl (places + 1 - s.length)).append h
  refine Visible.append ?_ (Visible.cons rfl ?_)
  · exact fun c hc => hpadded c (List.mem_of_mem_take hc)
  · exact fun c hc => hpadded c (List.mem_of_mem_drop hc)

theorem visible_positional (decimal : Decimal) : Visible decimal.positional := by
  rw [Decimal.positional]
  split
  · exact (visible_ofNat _).append (visible_replicate rfl _)
  · exact visible_withPoint (visible_ofNat _) _

theorem visible_scientific (decimal : Decimal) : Visible decimal.scientific := by
  have hdigits := visible_ofNat decimal.digits
  refine Visible.append (Visible.append ?_ ?_) (Visible.cons rfl (Visible.cons ?_ ?_))
  · exact fun c hc => hdigits c (List.mem_of_mem_take hc)
  · split
    · exact List.forall_mem_nil _
    · exact Visible.cons rfl fun c hc => hdigits c (List.mem_of_mem_drop hc)
  · split <;> rfl
  · exact (visible_replicate rfl _).append (visible_ofNat _)

theorem visible_text (value : Double) : Visible value.text := by
  cases value with
  | nan => exact visible_of_all rfl
  | infinite negative => exact (visible_signText negative).append (visible_of_all rfl)
  | finite negative ordinal =>
    refine (visible_signText negative).append ?_
    rw [Reckoner.Layout.write]
    split
    · refine (visible_positional _).append ?_
      split
      · exact visible_of_all rfl
      · exact List.forall_mem_nil _
    · exact visible_scientific _

theorem visible_realText (value : Double) : Visible (realText value) := by
  cases value with
  | nan => exact visible_of_all rfl
  | infinite negative => cases negative <;> exact visible_of_all rfl
  | finite negative ordinal hordinal => exact visible_text (.finite negative ordinal hordinal)

/-! ### Strings -/

theorem exists_of_mem_toDigits {n : ℕ} {c : Char} (h : c ∈ Nat.toDigits 16 n) :
    ∃ d < 16, c = Nat.digitChar d := by
  induction n using Nat.strongRecOn with
  | ind n ih =>
    rw [Nat.toDigits_eq_if (by decide)] at h
    split at h
    case isTrue hlt => exact ⟨n, hlt, List.mem_singleton.mp h⟩
    case isFalse hge =>
      rcases List.mem_append.mp h with h | h
      · exact ih (n / 16) (by omega) h
      · exact ⟨n % 16, Nat.mod_lt n (by decide), List.mem_singleton.mp h⟩

theorem isVisible_digitChar : ∀ d < 16, isVisible (Nat.digitChar d) = true := by decide

theorem visible_unitEscape (n : ℕ) : Visible (unitEscape n) := by
  refine Visible.append (visible_of_all rfl) (Visible.append (visible_replicate rfl _) ?_)
  intro c hc
  obtain ⟨d, hd, rfl⟩ := exists_of_mem_toDigits hc
  exact isVisible_digitChar d hd

theorem visible_escaped (c : Char) : Visible (escaped c) := by
  rw [escaped]
  -- The seven characters with escapes of their own.
  iterate 7
    split
    case isTrue => exact visible_of_all rfl
  split
  case isTrue hplain => exact List.forall_mem_singleton.mpr hplain
  case isFalse =>
    split
    · exact visible_unitEscape _
    · exact (visible_unitEscape _).append (visible_unitEscape _)

theorem visible_stringText (s : LooseText) : Visible (stringText s) := by
  refine Visible.cons rfl (Visible.append ?_ (visible_of_all rfl))
  intro c hc
  obtain ⟨symbol, -, hc⟩ := List.mem_flatMap.mp hc
  cases symbol with
  | char a => exact visible_escaped a c hc
  | half a => exact visible_unitEscape _ c hc

/-! ### Values -/

/-- A property of all values: it is true of an array if it is of the items, and of an object if it is
of what its members hold. -/
@[elab_as_elim]
theorem Value.induction {motive : Value → Prop} (null : motive .null)
    (boolean : ∀ value, motive (.boolean value)) (integer : ∀ value, motive (.integer value))
    (real : ∀ value, motive (.real value)) (text : ∀ value, motive (.text value))
    (array : ∀ items, (∀ v ∈ items, motive v) → motive (.array items))
    (object : ∀ members, (∀ m ∈ members, motive m.2) → motive (.object members)) (v : Value) :
    motive v :=
  @Value.rec motive (fun items => ∀ v ∈ items, motive v) (fun members => ∀ m ∈ members, motive m.2)
    (fun m => motive m.2) null boolean integer real text array object (List.forall_mem_nil _)
    (fun _ _ hv hitems => List.forall_mem_cons.mpr ⟨hv, hitems⟩) (List.forall_mem_nil _)
    (fun _ _ hm hmembers => List.forall_mem_cons.mpr ⟨hm, hmembers⟩) (fun _ _ hv => hv) v

/-- Whether `c` may stand in what is written: it is visible, or a line feed where items have lines of
their own. -/
def Layout.allows (layout : Layout) (c : Char) : Bool :=
  isVisible c || (c == '\n' && layout != .compact)

theorem allows_of_isVisible {c : Char} (h : isVisible c = true) : layout.allows c = true := by
  rw [Layout.allows, h, Bool.true_or]

/-- A text that may stand in what is written. -/
def Layout.Admits (layout : Layout) (s : Text) : Prop := ∀ c ∈ s, layout.allows c = true

theorem Visible.admits (h : Visible s) : layout.Admits s := fun c hc => allows_of_isVisible (h c hc)

theorem admits_append (h : layout.Admits s) (h' : layout.Admits t) : layout.Admits (s ++ t) :=
  List.forall_mem_append.mpr ⟨h, h'⟩

theorem admits_cons {c : Char} (hc : isVisible c = true) (h : layout.Admits s) :
    layout.Admits (c :: s) :=
  List.forall_mem_cons.mpr ⟨allows_of_isVisible hc, h⟩

theorem admits_indentation (width n : ℕ) :
    (Layout.indented width).Admits ('\n' :: List.replicate n ' ') :=
  List.forall_mem_cons.mpr ⟨rfl, (visible_replicate rfl n).admits⟩

theorem admits_before (layout : Layout) (depth : ℕ) : layout.Admits (layout.before depth) := by
  cases layout with
  | compact => exact List.forall_mem_nil _
  | indented width => exact admits_indentation width _

theorem admits_after (layout : Layout) (depth : ℕ) : layout.Admits (layout.after depth) := by
  cases layout with
  | compact => exact List.forall_mem_nil _
  | indented width => exact admits_indentation width _

theorem admits_between (layout : Layout) (depth : ℕ) : layout.Admits (layout.between depth) := by
  cases layout with
  | compact => exact (visible_of_all rfl).admits
  | indented width => exact admits_cons rfl (admits_before _ depth)

theorem admits_joined {separator : Text} {texts : List Text} (hseparator : layout.Admits separator)
    (htexts : ∀ t ∈ texts, layout.Admits t) : layout.Admits (Text.joined separator texts) := by
  induction texts with
  | nil => exact List.forall_mem_nil _
  | cons t texts ih =>
    obtain ⟨ht, htexts⟩ := List.forall_mem_cons.mp htexts
    cases texts with
    | nil => rwa [joined_singleton]
    | cons u texts =>
      rw [joined_cons_cons]
      exact admits_append ht (admits_append hseparator (ih htexts))

theorem admits_enclose {opening closing : Char} (hopening : isVisible opening = true)
    (hclosing : isVisible closing = true) {items : List Text}
    (hitems : ∀ t ∈ items, layout.Admits t) :
    layout.Admits (layout.enclose depth opening closing items) := by
  have hlast : layout.Admits [closing] := List.forall_mem_singleton.mpr (allows_of_isVisible hclosing)
  rw [Layout.enclose]
  split
  · exact admits_cons hopening hlast
  · refine admits_cons hopening (admits_append (admits_append (admits_append ?_ ?_) ?_) hlast)
    · exact admits_before _ _
    · exact admits_joined (admits_between _ _) hitems
    · exact admits_after _ _

/-- A value is written in visible characters, and with line feeds where items have lines of their
own. -/
theorem admits_writeAt (v : Value) (layout : Layout) (depth : ℕ) :
    layout.Admits (v.writeAt layout depth) := by
  induction v using Value.induction generalizing depth with
  | null => exact (visible_of_all rfl).admits
  | boolean value => cases value <;> exact (visible_of_all rfl).admits
  | integer value => exact (visible_ofInt value).admits
  | real value => exact (visible_realText value).admits
  | text value => exact (visible_stringText value).admits
  | array items ih =>
    refine admits_enclose rfl rfl ?_
    induction items with
    | nil => exact List.forall_mem_nil _
    | cons v items ihitems =>
      obtain ⟨hv, hitems⟩ := List.forall_mem_cons.mp ih
      exact List.forall_mem_cons.mpr ⟨hv (depth + 1), ihitems hitems⟩
  | object members ih =>
    refine admits_enclose rfl rfl ?_
    induction members with
    | nil => exact List.forall_mem_nil _
    | cons m members ihmembers =>
      obtain ⟨hm, hmembers⟩ := List.forall_mem_cons.mp ih
      refine List.forall_mem_cons.mpr ⟨?_, ihmembers hmembers⟩
      exact admits_append (Visible.append (visible_stringText m.1) (visible_of_all rfl)).admits
        (hm (depth + 1))

/-- On one line there is no line feed. -/
theorem lineFeed_not_mem_write (v : Value) : '\n' ∉ v.write .compact := by
  intro h
  have hallowed := admits_writeAt v .compact 0 '\n' h
  cases hallowed

theorem write_ne_return (v : Value) (layout : Layout) : ∀ c ∈ v.write layout, c ≠ '\r' := by
  rintro c hc rfl
  have hallowed := admits_writeAt v layout 0 '\r' hc
  cases layout <;> cases hallowed

end Reckoner.Json
