import Reckoner.Journal.Basic
import Reckoner.Proofs.Json.Soundness

/-! The format of journals.  Entries whose texts are joined and whose times have not too many digits
are written in every layout and read again from what was written; all entries that are read are of
this kind. -/

namespace Reckoner

open Json (Value Fits)

namespace Entry

variable {entry : Entry} {entries : List Entry} {s space : Text}

/-- An entry that can be written and read again. -/
structure Keepable (entry : Entry) : Prop where
  expression : entry.expression.IsJoined
  result : entry.result.IsJoined
  time : (Text.ofNat entry.time.natAbs).length ≤ maxIntegerDigits

theorem length_ofNat_le_iff {n k : ℕ} (hk : 0 < k) : (Text.ofNat n).length ≤ k ↔ n < 10 ^ k :=
  Nat.length_toDigits_le_iff (by decide) hk

theorem isSome_ofInt? {n : ℤ} :
    (Text.ofInt? n).isSome = true ↔ (Text.ofNat n.natAbs).length ≤ maxIntegerDigits := by
  rw [Text.ofInt?]
  split
  case isTrue h => simp [h]
  case isFalse h => simp [Nat.le_of_not_lt h]

/-- Short of the digits of its time, an entry of joined texts is kept. -/
theorem keepable_iff (hexpression : entry.expression.IsJoined) (hresult : entry.result.IsJoined) :
    entry.Keepable ↔ (Text.ofInt? entry.time).isSome = true :=
  ⟨fun h => isSome_ofInt?.mpr h.time, fun h => ⟨hexpression, hresult, isSome_ofInt?.mp h⟩⟩

/-! ### What is written is read -/

@[simp] theorem ofJson?_json (entry : Entry) : ofJson? entry.json = some entry := rfl

theorem Keepable.fits {depth : ℕ} (h : entry.Keepable) : Fits (depth + 1) entry.json := by
  refine .object ?_ ?_
  · intro m hm
    simp only [List.mem_cons, List.not_mem_nil, or_false] at hm
    rcases hm with rfl | rfl | rfl
    all_goals exact LooseText.isJoined_loose _
  · intro m hm
    simp only [List.mem_cons, List.not_mem_nil, or_false] at hm
    rcases hm with rfl | rfl | rfl
    · exact .text h.expression
    · exact .text h.result
    · exact .integer h.time

theorem read_writeAll (h : ∀ e ∈ entries, e.Keepable) (layout : Json.Layout)
    (hspace : ∀ c ∈ space, Json.isSpace c = true) :
    Value.read (writeAll layout entries ++ space) = .ok (.array (entries.map json)) := by
  have hfits : Fits (984 + 1) (.array (entries.map json)) := by
    refine .array fun v hv => ?_
    obtain ⟨e, he, rfl⟩ := List.mem_map.mp hv
    exact (h e he).fits
  exact Json.read_write hfits layout hspace

theorem filterMap_ofJson? (entries : List Entry) :
    (entries.map json).filterMap ofJson? = entries := by
  simp [List.filterMap_map, Function.comp_def]

theorem readAll_of_read {items : List Value} (h : Value.read s = .ok (.array items)) :
    readAll s = .ok (items.filterMap ofJson?) := by
  have hne : s.isEmpty = false := by
    cases s with
    | nil => cases h
    | cons => rfl
  rw [readAll, hne, h]
  rfl

/-- Entries that can be kept are read from their text. -/
theorem readAll_writeAll (h : ∀ e ∈ entries, e.Keepable) (layout : Json.Layout)
    (hspace : ∀ c ∈ space, Json.isSpace c = true) :
    readAll (writeAll layout entries ++ space) = .ok entries := by
  rw [readAll_of_read (read_writeAll h layout hspace), filterMap_ofJson?]

theorem writeAll?_eq_some (layout : Json.Layout) {text : Text} :
    writeAll? layout entries = some text ↔
      (∀ e ∈ entries, (Text.ofInt? e.time).isSome = true) ∧ writeAll layout entries = text := by
  rw [writeAll?]
  split
  case isTrue h => simpa using fun _ => h
  case isFalse h => simpa using fun h' => absurd h' (by simpa using h)

theorem writeAll?_of_keepable (h : ∀ e ∈ entries, e.Keepable) (layout : Json.Layout) :
    writeAll? layout entries = some (writeAll layout entries) :=
  (writeAll?_eq_some layout).mpr ⟨fun e he => isSome_ofInt?.mpr (h e he).time, rfl⟩

/-! ### What is read can be written -/

theorem mem_of_member? {key : LooseText} {members : List (LooseText × Value)} {v : Value}
    (h : Value.member? key members = some v) : (key, v) ∈ members := by
  obtain ⟨l, l', heq, -⟩ := List.lookup_eq_some_iff.mp h
  exact List.mem_reverse.mp (heq ▸ List.mem_append_right l List.mem_cons_self)

theorem keepable_of_ofJson? {depth : ℕ} {v : Value} (hfits : Fits depth v)
    (h : ofJson? v = some entry) : entry.Keepable := by
  rw [ofJson?.eq_def] at h
  split at h
  case h_2 => cases h
  case h_1 members =>
    have hmember {key : LooseText} {w : Value} (hw : Value.member? key members = some w) :
        ∃ depth, Fits depth w := by
      cases hfits with
      | object _ hmembers => exact ⟨_, hmembers _ (mem_of_member? hw)⟩
    split at h
    case h_2 => cases h
    case h_1 expression result hexpression hresult =>
      obtain ⟨_, hexpression⟩ := hmember hexpression
      obtain ⟨_, hresult⟩ := hmember hresult
      split at h
      case h_1 time htime =>
        obtain ⟨_, htime⟩ := hmember htime
        obtain rfl := Option.some.inj h
        exact ⟨hexpression.isJoined, hresult.isJoined, htime.length_le⟩
      case h_2 =>
        obtain rfl := Option.some.inj h
        exact ⟨hexpression.isJoined, hresult.isJoined, by simp [Text.ofNat, maxIntegerDigits]⟩

/-- All entries that are read can be kept. -/
theorem keepable_of_readAll (h : readAll s = .ok entries) : ∀ e ∈ entries, e.Keepable := by
  rw [readAll] at h
  split at h
  case isTrue =>
    obtain rfl := Except.ok.inj h
    simp
  case isFalse =>
    split at h
    case h_1 items hread =>
      obtain rfl := Except.ok.inj h
      intro e he
      obtain ⟨v, hv, hentry⟩ := List.mem_filterMap.mp he
      cases Json.fits_of_read hread with
      | array hitems => exact keepable_of_ofJson? (hitems v hv) hentry
    case h_2 => cases h
    case h_3 => cases h

/-! ### The forms of a journal -/

/-- The layouts of a journal in its file and in a copy, each with what stands after the array. -/
def forms : List (Json.Layout × Text) := [(.compact, []), (.indented 2, ['\n'])]

theorem isSpace_of_mem_forms {form : Json.Layout × Text} (h : form ∈ forms) :
    ∀ c ∈ form.2, Json.isSpace c = true := by
  simp only [forms, List.mem_cons, List.not_mem_nil, or_false] at h
  rcases h with rfl | rfl
  · exact List.forall_mem_nil _
  · exact List.forall_mem_singleton.mpr rfl

/-- Entries that can be kept and are not too many come back from the text of a file, and from the
text of a copy, one by one and in their order. -/
theorem entries_of_written {m : ℕ} (h : ∀ e ∈ entries, e.Keepable) (hm : entries.length ≤ m)
    {form : Json.Layout × Text} (hform : form ∈ forms) :
    ∃ text items, writeAll? form.1 entries = some text ∧
      Value.read (text ++ form.2) = .ok (.array items) ∧
      items.map ofJson? = entries.map some ∧
      (readAll (text ++ form.2)).map (upTo m) = .ok entries := by
  have hspace := isSpace_of_mem_forms hform
  refine ⟨writeAll form.1 entries, entries.map json, writeAll?_of_keepable h form.1,
    read_writeAll h form.1 hspace, by simp, ?_⟩
  rw [readAll_writeAll h form.1 hspace]
  exact congrArg Except.ok (List.take_of_length_le hm)

/-- Two entries: one with a quote, a backslash, a line feed and characters of other scripts, and one
without texts.  Their times are beyond 64 bits. -/
def unusual : List Entry :=
  [⟨Text.loose ['"', '\\', '\n', 'é', '😀'], Text.loose ['π'], -2 ^ 70⟩, ⟨[], [], 2 ^ 64⟩]

theorem keepable_unusual : ∀ e ∈ unusual, e.Keepable := by
  refine List.forall_mem_cons.mpr ⟨⟨LooseText.isJoined_loose _, LooseText.isJoined_loose _, ?_⟩,
    List.forall_mem_singleton.mpr ⟨LooseText.isJoined_loose [], LooseText.isJoined_loose [], ?_⟩⟩
  all_goals decide +kernel

theorem entries_of_written_unusual : (∀ e ∈ unusual, e.Keepable) ∧ unusual.length ≤ 2 ∧
    (.indented 2, ['\n']) ∈ forms ∧ ∃ text items, writeAll? (.indented 2) unusual = some text ∧
      Value.read (text ++ ['\n']) = .ok (.array items) ∧
      items.map ofJson? = unusual.map some ∧
      (readAll (text ++ ['\n'])).map (upTo 2) = .ok unusual := by
  have hform : (.indented 2, ['\n']) ∈ forms := .tail _ (.head _)
  exact ⟨keepable_unusual, le_rfl, hform, entries_of_written keepable_unusual le_rfl hform⟩

/-- An entry whose time has one digit more than is ever read or written. -/
def longTimed : Entry := ⟨Text.loose ['1'], Text.loose ['1'], 10 ^ maxIntegerDigits⟩

theorem not_keepable_longTimed : ¬(Text.ofNat longTimed.time.natAbs).length ≤ maxIntegerDigits := by
  rw [length_ofNat_le_iff (by decide), longTimed, Int.natAbs_pow, show Int.natAbs 10 = 10 from rfl]
  exact lt_irrefl _

theorem not_entries_of_written : (∀ form ∈ forms, writeAll? form.1 [longTimed] = none) ∧
    ∀ text, readAll text ≠ .ok [longTimed] := by
  refine ⟨fun form _ => ?_, fun text h => ?_⟩
  · rw [Option.eq_none_iff_forall_ne_some]
    intro text htext
    have := ((writeAll?_eq_some form.1).mp htext).1 longTimed List.mem_cons_self
    exact not_keepable_longTimed (isSome_ofInt?.mp this)
  · exact not_keepable_longTimed (keepable_of_readAll h longTimed List.mem_cons_self).time

end Entry

end Reckoner
