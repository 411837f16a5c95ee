import Reckoner.Proofs.Disk.Amended
import Reckoner.Proofs.Journal.Agreement

/-! Journals in whatever state their files are.  Opening a journal finds the entries in its file, or
none and a warning where a folder is in the place of the file, the path goes on below another file,
or the file holds something else.  It breaks off only at a name that no system call accepts, at bytes
that are no text, and at numerals and values that are never read. -/

namespace Reckoner

open Json (Value)
open Utf8 (Bytes)

/-! ### Paths that cannot be read -/

namespace Disk

variable {disk : Disk} {folder place : Place} {path : Path} {name : Text} {fault : DiskFault}

/-- A path that has names after that of a file. -/
def BelowFile (disk : Disk) (folder : Place) (path : Path) : Prop :=
  ∃ before name after place bytes, path.names = before ++ name :: after ∧
    before.foldlM disk.step (startOf folder path) = .ok place ∧ disk.find? place = some (.file bytes)

theorem read_of_isFolder (h : disk.isFolder folder path = true) :
    disk.read folder path = .error .isFolder := by
  rw [isFolder] at h
  split at h
  case h_1 place hlocate =>
    rw [read_of_locate hlocate, fileAt, of_decide_eq_true h]
  case h_2 => cases h

/-- What is below a file is not missing: it cannot be. -/
theorem read_of_belowFile (h : disk.BelowFile folder path) :
    ∃ fault, disk.read folder path = .error fault ∧ fault ≠ .missing := by
  obtain ⟨before, name, after, place, bytes, hnames, hbefore, hfile⟩ := h
  have hstep : disk.step place name = .error .notFolder := by rw [step, hfile]
  have hlocate : ∃ fault, disk.locate folder path = .error fault ∧ fault ≠ .missing := by
    rw [locate]
    split
    · exact ⟨.zeroInName, rfl, by decide⟩
    · split
      · exact ⟨.nameTooLong, rfl, by decide⟩
      · refine ⟨.notFolder, ?_, by decide⟩
        change path.names.foldlM disk.step (startOf folder path) = _
        rw [hnames, List.foldlM_append, hbefore]
        change (name :: after).foldlM disk.step place = _
        rw [List.foldlM_cons, hstep]
        rfl
  obtain ⟨fault, hlocate, hfault⟩ := hlocate
  exact ⟨fault, read_of_locate_error hlocate, hfault⟩

theorem step_eq_error (h : disk.step place name = .error fault) :
    fault = .missing ∨ fault = .nameTooLong ∨
      fault = .notFolder ∧ ∃ bytes, disk.find? place = some (.file bytes) := by
  rw [step] at h
  split at h
  case h_1 => exact .inl (Except.error.inj h).symm
  case h_2 bytes hfile => exact .inr (.inr ⟨(Except.error.inj h).symm, bytes, hfile⟩)
  case h_3 =>
    split at h
    · cases h
    · split at h
      · exact .inr (.inl (Except.error.inj h).symm)
      · cases h

/-- Why a file cannot be read. -/
theorem read_eq_error (h : disk.read folder path = .error fault) :
    fault = .missing ∨ fault = .nameTooLong ∨ fault = .notFolder ∧ disk.BelowFile folder path ∨
      fault = .isFolder ∧ disk.isFolder folder path = true ∨
      fault = .zeroInName ∧ path.hasZero = true := by
  cases hlocate : disk.locate folder path with
  | ok place =>
    rw [read_of_locate hlocate, fileAt] at h
    split at h
    case h_1 => cases h
    case h_2 hfolder =>
      refine .inr (.inr (.inr (.inl ⟨(Except.error.inj h).symm, ?_⟩)))
      rw [isFolder, hlocate]
      exact decide_eq_true hfolder
    case h_3 => exact .inl (Except.error.inj h).symm
  | error fault' =>
    obtain rfl := Except.error.inj ((read_of_locate_error hlocate).symm.trans h)
    rw [locate] at hlocate
    split at hlocate
    · next hzero => exact .inr (.inr (.inr (.inr ⟨(Except.error.inj hlocate).symm, hzero⟩)))
    · split at hlocate
      · exact .inr (.inl (Except.error.inj hlocate).symm)
      · obtain ⟨before, name, after, place, hnames, hbefore, hstep⟩ := foldlM_eq_error.mp hlocate
        rcases step_eq_error hstep with hmissing | hlong | ⟨hfault, bytes, hfile⟩
        · exact .inl hmissing
        · exact .inr (.inl hlong)
        · exact .inr (.inr (.inl ⟨hfault, before, name, after, place, bytes, hnames, hbefore, hfile⟩))

end Disk

/-! ### What is recovered -/

theorem Entry.among_filterMap (items : List Value) : Among items (items.filterMap ofJson?) := by
  induction items with
  | nil => exact .nil
  | cons item items ih =>
    cases hitem : ofJson? item with
    | none =>
      rw [List.filterMap_cons_none hitem]
      refine .other (fun entry hentry => ?_) ih
      rw [ofJson?_eq_some.mpr hentry] at hitem
      cases hitem
    | some entry =>
      rw [List.filterMap_cons_some hitem]
      exact .entry (ofJson?_eq_some.mp hitem) ih

namespace Journal

/-- The warning that a journal cannot be read. -/
def unreadableWarning (path : Path) : Text :=
  "could not read history " ++ path.text ++ ": " ++ systemWords

/-- The warning that the file of a journal holds something else. -/
def malformedWarning (path : Path) (reason : Text) : Text :=
  "discarding malformed history " ++ path.text ++ ": " ++ reason

/-- The entries that are recovered from the file of a journal, and the warning that is due.  A file
that is missing or empty has no entries, and an array those among its items; anything else that can
be told to be no array of entries has none and a warning. -/
inductive Recovered (disk : Disk) (folder : Place) (path : Path) : List Entry → Option Text → Prop
  | missing (h : disk.read folder path = .error .missing) : Recovered disk folder path [] none
  | empty (h : disk.read folder path = .ok []) : Recovered disk folder path [] none
  | array {bytes : Bytes} {text : Text} {items : List Value} {entries : List Entry}
      (hread : disk.read folder path = .ok bytes) (htext : Utf8.decode bytes = .ok text)
      (hvalue : Value.read text.unifyLineFeeds = .ok (.array items))
      (hitems : Entry.Among items entries) : Recovered disk folder path entries none
  | folder (h : disk.isFolder folder path = true) :
      Recovered disk folder path [] (some (unreadableWarning path))
  | belowFile (h : disk.BelowFile folder path) (hzero : path.hasZero = false) :
      Recovered disk folder path [] (some (unreadableWarning path))
  | nameTooLong (h : disk.read folder path = .error .nameTooLong) :
      Recovered disk folder path [] (some (unreadableWarning path))
  | malformed {bytes : Bytes} {text : Text} (hread : disk.read folder path = .ok bytes)
      (hsome : bytes ≠ []) (htext : Utf8.decode bytes = .ok text)
      (hvalue : Value.read text.unifyLineFeeds = .error .malformed) :
      Recovered disk folder path [] (some (malformedWarning path malformedWords))
  | noArray {bytes : Bytes} {text : Text} {value : Value}
      (hread : disk.read folder path = .ok bytes) (htext : Utf8.decode bytes = .ok text)
      (hvalue : Value.read text.unifyLineFeeds = .ok value) (hother : ∀ items, value ≠ .array items) :
      Recovered disk folder path [] (some (malformedWarning path "expected a JSON array"))

/-- The faults at which opening a journal breaks off: a name that no system call accepts, bytes that
are no text in UTF-8, and a numeral or nesting beyond what is ever read. -/
inductive Breaks (disk : Disk) (folder : Place) (path : Path) : Crash → Prop
  | zeroInName (h : path.hasZero = true) : Breaks disk folder path (.disk .zeroInName)
  | undecodable {bytes : Bytes} {fault : Utf8.Fault} (hread : disk.read folder path = .ok bytes)
      (h : Utf8.decode bytes = .error fault) : Breaks disk folder path (.undecodable fault)
  | numeralTooLong {bytes : Bytes} {text : Text} (hread : disk.read folder path = .ok bytes)
      (htext : Utf8.decode bytes = .ok text)
      (hvalue : Value.read text.unifyLineFeeds = .error .numeralTooLong) :
      Breaks disk folder path .numeralTooLong
  | tooDeep {bytes : Bytes} {text : Text} (hread : disk.read folder path = .ok bytes)
      (htext : Utf8.decode bytes = .ok text)
      (hvalue : Value.read text.unifyLineFeeds = .error .tooDeep) : Breaks disk folder path .tooDeep

/-- The log record of a warning, if one is due. -/
def warnings (warning : Option Text) : List Event :=
  (warning.map (Event.logged .warning logSource)).toList

@[simp] theorem showsAll_warnings_none (world : World) : world.showsAll (warnings none) = world :=
  world.showsAll_nil

section Recovered

variable {disk : Disk} {folder : Place} {path : Path} {entries : List Entry} {warning : Option Text}
  {crash : Crash} {world : World} {bytes : Bytes} {text : Text} {capacity : ℤ}

theorem decode_eq_nil (h : Utf8.decode bytes = .ok []) : bytes = [] := by
  cases bytes with
  | nil => rfl
  | cons first bytes =>
    rw [Utf8.decode, Utf8.decodeFrom] at h
    split at h
    · cases h
    · obtain ⟨_, -, hcons⟩ := map_eq_ok h
      cases hcons

theorem unifyLineFeeds_eq_nil (h : text.unifyLineFeeds = []) : text = [] := by
  rw [Text.unifyLineFeeds.eq_def] at h
  split at h
  · rfl
  · cases h
  · cases h

theorem ne_nil_of_read_ok {value : Value} (h : Value.read text = .ok value) : text ≠ [] := by
  rintro rfl
  cases h

theorem ne_nil_of_read_error {fault : ReadFault} (h : Value.read text = .error fault)
    (hfault : fault ≠ .malformed) : text ≠ [] := by
  rintro rfl
  exact hfault (Except.error.inj h).symm

theorem textIn_of_decode (h : Utf8.decode bytes = .ok text) :
    textIn (.ok bytes) = .ok (.ok text.unifyLineFeeds) := by
  rw [textIn, h]

theorem readAll_of_ne_nil (h : text ≠ []) : Entry.readAll text = match Value.read text with
    | .ok (.array items) => .ok (items.filterMap Entry.ofJson?)
    | .ok _ => .error .noArray
    | .error fault => .error (.json fault) := by
  cases text with
  | nil => exact absurd rfl h
  | cons => rfl

/-- What the text of a file comes to decides what opening the journal does. -/
theorem run_entriesAt_of_text (htext : textIn (world.disk.read world.folder path) = .ok (.ok text)) :
    (entriesAt path).run world = match Entry.readAll text with
      | .ok entries => (.ok entries, world)
      | .error (.json .numeralTooLong) => (.error (.crash .numeralTooLong), world)
      | .error (.json .tooDeep) => (.error (.crash .tooDeep), world)
      | .error (.json .malformed) =>
        (.ok [], world.showsAll (warnings (some (malformedWarning path malformedWords))))
      | .error .noArray =>
        (.ok [], world.showsAll (warnings (some (malformedWarning path "expected a JSON array")))) := by
  rw [entriesAt, Program.run_bind, run_readText, htext]
  dsimp only [Except.mapError]
  rcases Entry.readAll text with (fault | _) | entries
  · cases fault <;> rfl
  · rfl
  · rfl

theorem run_entriesAt_of_unreadable {fault : DiskFault} (hmissing : fault ≠ .missing)
    (hzero : path.hasZero = false) (h : world.disk.read world.folder path = .error fault) :
    (entriesAt path).run world =
      (.ok [], world.showsAll (warnings (some (unreadableWarning path)))) := by
  rw [entriesAt, Program.run_bind, run_readText, h]
  cases fault with
  | missing => exact absurd rfl hmissing
  | zeroInName => exact absurd h (Disk.read_ne_zeroInName hzero)
  | _ => rfl

/-- Opening gives what can be recovered, with the warning that is due and no other. -/
theorem run_entriesAt_of_recovered (h : Recovered world.disk world.folder path entries warning) :
    (entriesAt path).run world = (.ok entries, world.showsAll (warnings warning)) := by
  cases h with
  | missing h =>
    rw [entriesAt, Program.run_bind, run_readText, h, showsAll_warnings_none]
    rfl
  | empty h =>
    rw [run_entriesAt_of_text (h ▸ textIn_of_decode (Utf8.decode_encode [])), showsAll_warnings_none]
    rfl
  | array hread htext hvalue hitems =>
    rw [run_entriesAt_of_text (hread ▸ textIn_of_decode htext), Entry.readAll_of_read hvalue,
      showsAll_warnings_none, ← Entry.filterMap_of_among hitems]
  | folder h =>
    have hread := Disk.read_of_isFolder h
    have hzero : path.hasZero = false := Disk.hasZero_of_read (by rw [hread]; decide)
    exact run_entriesAt_of_unreadable (show DiskFault.isFolder ≠ .missing by decide) hzero hread
  | belowFile h hzero =>
    obtain ⟨fault, hread, hmissing⟩ := Disk.read_of_belowFile h
    exact run_entriesAt_of_unreadable hmissing hzero hread
  | nameTooLong h =>
    have hzero : path.hasZero = false := Disk.hasZero_of_read (by rw [h]; decide)
    exact run_entriesAt_of_unreadable (show DiskFault.nameTooLong ≠ .missing by decide) hzero h
  | malformed hread hsome htext hvalue =>
    have hnonempty := fun hnil => hsome (decode_eq_nil (unifyLineFeeds_eq_nil hnil ▸ htext))
    rw [run_entriesAt_of_text (hread ▸ textIn_of_decode htext), readAll_of_ne_nil hnonempty, hvalue]
  | @noArray bytes text value hread htext hvalue hother =>
    rw [run_entriesAt_of_text (hread ▸ textIn_of_decode htext),
      readAll_of_ne_nil (ne_nil_of_read_ok hvalue), hvalue]
    cases value with
    | array items => exact absurd rfl (hother items)
    | _ => rfl

theorem run_entriesAt_of_breaks (h : Breaks world.disk world.folder path crash) :
    (entriesAt path).run world = (.error (.crash crash), world) := by
  cases h with
  | zeroInName h =>
    rw [entriesAt, Program.run_bind, run_readText,
      Disk.read_of_locate_error (Disk.locate_eq_zeroInName.mpr h)]
    rfl
  | undecodable hread h =>
    rw [entriesAt, Program.run_bind, run_readText, hread, textIn, h]
    rfl
  | numeralTooLong hread htext hvalue =>
    rw [run_entriesAt_of_text (hread ▸ textIn_of_decode htext),
      readAll_of_ne_nil (ne_nil_of_read_error hvalue (by decide)), hvalue]
  | tooDeep hread htext hvalue =>
    rw [run_entriesAt_of_text (hread ▸ textIn_of_decode htext),
      readAll_of_ne_nil (ne_nil_of_read_error hvalue (by decide)), hvalue]

theorem run_opened_of_recovered (h : Recovered world.disk world.folder path entries warning) :
    (opened path capacity).run world =
      (.ok ⟨path, capacity, upTo capacity entries⟩, world.showsAll (warnings warning)) := by
  rw [opened, Program.run_bind_of_ok (run_entriesAt_of_recovered h)]
  rfl

theorem run_opened_of_breaks (h : Breaks world.disk world.folder path crash) :
    (opened path capacity).run world = (.error (.crash crash), world) := by
  rw [opened, Program.run_bind_of_error (run_entriesAt_of_breaks h)]

theorem found_of_recovered (h : Recovered world.disk world.folder path entries warning) :
    found (world.disk.read world.folder path) = .ok entries := by
  obtain ⟨events, -, hrun⟩ := run_entriesAt path world
  rw [run_entriesAt_of_recovered h] at hrun
  cases hfound : found (world.disk.read world.folder path) with
  | error crash =>
    rw [hfound] at hrun
    cases (Prod.mk.inj hrun).1
  | ok entries' =>
    rw [hfound] at hrun
    rw [Except.ok.inj (Prod.mk.inj hrun).1]

theorem found_of_breaks (h : Breaks world.disk world.folder path crash) :
    found (world.disk.read world.folder path) = .error crash := by
  obtain ⟨events, -, hrun⟩ := run_entriesAt path world
  rw [run_entriesAt_of_breaks h] at hrun
  cases hfound : found (world.disk.read world.folder path) with
  | error crash' =>
    rw [hfound] at hrun
    rw [Fault.crash.inj (Except.error.inj (Prod.mk.inj hrun).1)]
  | ok entries =>
    rw [hfound] at hrun
    cases (Prod.mk.inj hrun).1

/-- There is no state of a file but these. -/
theorem recovered_or_breaks (disk : Disk) (folder : Place) (path : Path) :
    (∃ entries warning, Recovered disk folder path entries warning) ∨
      ∃ crash, Breaks disk folder path crash := by
  cases hread : disk.read folder path with
  | error fault =>
    rcases Disk.read_eq_error hread with
      rfl | rfl | ⟨rfl, hbelow⟩ | ⟨rfl, hfolder⟩ | ⟨rfl, hzero⟩
    · exact .inl ⟨_, _, .missing hread⟩
    · exact .inl ⟨_, _, .nameTooLong hread⟩
    · exact .inl ⟨_, _, .belowFile hbelow (Disk.hasZero_of_read (by rw [hread]; decide))⟩
    · exact .inl ⟨_, _, .folder hfolder⟩
    · exact .inr ⟨_, .zeroInName hzero⟩
  | ok bytes =>
    cases htext : Utf8.decode bytes with
    | error fault => exact .inr ⟨_, .undecodable hread htext⟩
    | ok text =>
      cases hvalue : Value.read text.unifyLineFeeds with
      | error fault =>
        cases fault with
        | numeralTooLong => exact .inr ⟨_, .numeralTooLong hread htext hvalue⟩
        | tooDeep => exact .inr ⟨_, .tooDeep hread htext hvalue⟩
        | malformed =>
          -- No text is no JSON either, but a file without bytes is an empty journal.
          by_cases hsome : bytes = []
          · exact .inl ⟨_, _, .empty (hsome ▸ hread)⟩
          · exact .inl ⟨_, _, .malformed hread hsome htext hvalue⟩
      | ok value =>
        cases value with
        | array items =>
          exact .inl ⟨_, _, .array hread htext hvalue (Entry.among_filterMap items)⟩
        | _ => exact .inl ⟨_, _, .noArray hread htext hvalue nofun⟩

/-- What has been written to the file of a journal is recovered. -/
theorem recovered_of_written
    (hfile : disk.read folder path = .ok (Utf8.encode (Entry.writeAll .compact entries)))
    (htimes : ∀ e ∈ entries, (Text.ofInt? e.time).isSome = true)
    (hjoined : ∀ e ∈ entries, e.expression.IsJoined ∧ e.result.IsJoined) :
    Recovered disk folder path entries none := by
  have hkeepable (e : Entry) (he : e ∈ entries) : e.Keepable :=
    (Entry.keepable_iff (hjoined e he).1 (hjoined e he).2).mpr (htimes e he)
  have hlines : (Entry.writeAll .compact entries).unifyLineFeeds = Entry.writeAll .compact entries :=
    unifyLineFeeds_eq_self (Json.write_ne_return _ .compact)
  have hvalue := Entry.read_writeAll hkeepable .compact (List.forall_mem_nil _)
  rw [List.append_nil, ← hlines] at hvalue
  have hitems := Entry.among_filterMap (entries.map Entry.json)
  rw [Entry.filterMap_ofJson?] at hitems
  exact .array hfile (Utf8.decode_encode _) hvalue hitems

end Recovered

end Journal

end Reckoner
